import TextEmbed.Proofs.Command.UnreadableInputs
import TextEmbed.Proofs.FileTree.Resolution

/-!
# Names of inputs

A declaration is named for the file alone, not for the way there. A path that leads to a file ends
in its name, and this is what the input is called. Only a path to a directory can end in something
else, and then the input is called by the whole path. But no declaration of a directory is ever
completed, so no declaration has such a name.

## Main results

* `Command.isTree_run`: runs leave a tree a tree;
* `Command.result_embedInput_of_directory`: no declaration of a directory is completed;
* `Command.isBaseName_of_ofPath`: files have base names;
* `Command.ofPath_names`: what names come of paths, and when they give the same identifier.
-/

namespace TextEmbed.Command

/-! ## Trees -/

/-- A run leaves a tree behind, if it has found one. -/
theorem isTree_run (options : Options) {world : World} (h : world.files.IsTree) :
    (run options world).world.files.IsTree := by
  rcases starts_or options world with ⟨opened, output, files, hstarts⟩ | ⟨e, log, hrun⟩
  · obtain ⟨stdin, log, hrun⟩ := hstarts.exists_run_eq
    rw [hrun]
    rcases of_create_eq_ok hstarts.created_eq with ⟨rfl, rfl⟩ | ⟨path, location, rfl, hcreated⟩
    · exact h
    · exact (h.create hcreated).fill location _
  · rwa [hrun]

/-! ## Names -/

/-- Whatever the sink is like, the declaration of a directory is not completed. -/
theorem result_embedInput_of_directory {σ : Type} [LineSink σ] {files : FileTree}
    {location : Location} (h : files.node? location = some .directory) (settings : Settings)
    (name : List Char) (sink : σ) :
    ∃ e,
      (embedInput settings { name, source := files.source location } sink).result = .error e := by
  cases hresult : (embedInput settings { name, source := files.source location } sink).result with
  | error e => exact ⟨e, rfl⟩
  | ok =>
    have hreading := reading_of_result_embedInput hresult
    rw [FileTree.source, h, result_reading_directory] at hreading
    cases hreading

section Files

variable {files : FileTree} {path : Path} {name : List Char} {location : Location}

/-- A path that leads to no directory ends in a name. -/
theorem getLast?_components_of_ofPath (hfiles : files.IsTree)
    (h : Opened.ofPath files path = .ok (.file name location))
    (hnode : files.node? location ≠ some .directory) :
    Path.IsName path.lastSegment ∧
      path.components.getLast? = some (.name path.lastSegment) := by
  obtain ⟨-, hopen, -⟩ := of_ofPath_eq_file h
  exact (hfiles.openPath_cases hopen).resolve_left hnode

/-- A file is called by what stands behind the last slash of its path. -/
theorem isBaseName_of_ofPath (hfiles : files.IsTree)
    (h : Opened.ofPath files path = .ok (.file name location))
    (hnode : files.node? location ≠ some .directory) : path.IsBaseName name := by
  obtain ⟨hname, hlast⟩ := getLast?_components_of_ofPath hfiles h hnode
  obtain ⟨-, -, rfl⟩ := of_ofPath_eq_file h
  have hbase : path.baseName = Utf8.lossy path.lastSegment := by
    rw [Path.baseName, Path.fileName?, hlast, Option.getD_some]
  rw [hbase]
  exact Path.isBaseName_lossy hname

/-- Only a path to a directory can end in something else than a name. -/
theorem node?_of_fileName?_eq_none (hfiles : files.IsTree)
    (h : Opened.ofPath files path = .ok (.file name location)) (hpath : path.fileName? = none) :
    files.node? location = some .directory := by
  by_contra hnode
  obtain ⟨-, hlast⟩ := getLast?_components_of_ofPath hfiles h hnode
  rw [Path.fileName?, hlast] at hpath
  cases hpath

end Files

/-- What inputs are called that are no standard input. A file has the base name of its path, so all
paths that end in the same component give files the same identifier, whatever the prefix. An input
is called by the whole path only if the path leads to a directory. Embedding that fails whatever the
sink is like, and so does every run that has it among its inputs. -/
theorem ofPath_names {files : FileTree} (hfiles : files.IsTree) {path : Path} {name : List Char}
    {location : Location} (h : Opened.ofPath files path = .ok (.file name location)) :
    (files.node? location ≠ some .directory →
      path.IsBaseName name ∧
      ∀ (other : Path) (otherName : List Char) (there : Location),
        Opened.ofPath files other = .ok (.file otherName there) →
        files.node? there ≠ some .directory →
        other.components.getLast? = path.components.getLast? →
        ∀ lead, Identifier.ofName lead otherName = Identifier.ofName lead name) ∧
    (path.fileName? = none →
      name = Utf8.lossy path.bytes ∧ files.node? location = some .directory ∧
      (∀ (σ : Type) [LineSink σ] (settings : Settings) (sink : σ), ∃ e,
        (embedInput settings { name, source := files.source location } sink).result = .error e) ∧
      ∀ (options : Options) (world : World), world.files = files → path ∈ options.files →
        ∃ failure, (run options world).result = .error failure) := by
  constructor
  · intro hnode
    refine ⟨isBaseName_of_ofPath hfiles h hnode, ?_⟩
    intro other otherName there hother hthere hlast lead
    obtain ⟨-, hpath⟩ := getLast?_components_of_ofPath hfiles h hnode
    obtain ⟨-, hpath'⟩ := getLast?_components_of_ofPath hfiles hother hthere
    -- the last components are the last segments, of which the names are made
    rw [hpath, hpath', Option.some.injEq, Component.name.injEq] at hlast
    rw [(isBaseName_of_ofPath hfiles h hnode).eq_lossy,
      (isBaseName_of_ofPath hfiles hother hthere).eq_lossy, hlast]
  · intro hpath
    obtain ⟨hstandard, hopen, hname⟩ := of_ofPath_eq_file h
    have hnode := node?_of_fileName?_eq_none hfiles h hpath
    refine ⟨by rw [hname, Path.baseName, hpath, Option.getD_none], hnode, ?_, ?_⟩
    · intro σ _ settings sink
      exact result_embedInput_of_directory hnode settings name sink
    · rintro options world rfl hmem
      exact result_run_of_unreadable hmem ⟨hstandard, .inr ⟨location, hopen, hnode⟩⟩

/-- For example a file that is found by way of other directories, and the directory above. -/
theorem ofPath_names_detour :
    let directory := Utf8.encode ['d']
    let inner := Utf8.encode ['e']
    let file := Utf8.encode "x.c".toList
    let files : FileTree :=
      { nodes := [([directory], .directory), ([directory, inner], .directory),
          ([directory, file], .regular [])]
        workingDirectory := [directory] }
    let path := Path.ofText "e/..//./x.c".toList
    let direct : Path := ⟨file⟩
    let above := Path.ofText "e/../..".toList
    files.IsTree ∧
      Opened.ofPath files path = .ok (.file path.baseName [directory, file]) ∧
      Opened.ofPath files direct = .ok (.file direct.baseName [directory, file]) ∧
      files.node? [directory, file] ≠ some .directory ∧
      direct.components.getLast? = path.components.getLast? ∧
      path.IsBaseName path.baseName ∧ path.baseName = "x.c".toList ∧
      Identifier.ofName ['_'] direct.baseName = Identifier.ofName ['_'] path.baseName ∧
      Opened.ofPath files above = .ok (.file above.baseName []) ∧ above.fileName? = none ∧
      files.node? [] = some .directory ∧ above.baseName = "e/../..".toList ∧
      ∃ failure, (run { files := [above] } { files }).result = .error failure := by
  intro directory inner file files path direct above
  have hfiles : files.IsTree := by decide
  have hpath : Opened.ofPath files path = .ok (.file path.baseName [directory, file]) := rfl
  have hdirect : Opened.ofPath files direct = .ok (.file direct.baseName [directory, file]) := rfl
  have habove : Opened.ofPath files above = .ok (.file above.baseName []) := rfl
  have hnode : files.node? [directory, file] ≠ some .directory := by decide
  have hlast : direct.components.getLast? = path.components.getLast? := by decide
  obtain ⟨hfile, -⟩ := ofPath_names hfiles hpath
  obtain ⟨hbase, hsame⟩ := hfile hnode
  obtain ⟨-, hwhole⟩ := ofPath_names hfiles habove
  obtain ⟨hname, hroot, -, hfails⟩ := hwhole (by decide)
  refine ⟨hfiles, hpath, hdirect, hnode, hlast, hbase, ?_, ?_, habove, by decide, hroot, ?_, ?_⟩
  · exact hbase.eq_of_text _ rfl
  · exact hsame direct _ _ hdirect hnode hlast ['_']
  · rw [hname]
    exact Utf8.lossy_encode _
  · exact hfails { files := [above] } { files } rfl (List.mem_singleton_self above)

end TextEmbed.Command
