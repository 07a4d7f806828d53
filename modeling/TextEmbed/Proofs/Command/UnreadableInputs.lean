import TextEmbed.Proofs.Command.Overwriting

/-!
# Inputs that can't be read

A run fails if an input is missing, lies behind something that is no directory, or is a directory.
No file is lost but the one that the output goes to. This one is spared if the input can't be
opened; but a directory can be opened, and turns out to be none to read from only when the output
has been emptied and the header of its declaration is written.

## Main definitions

* `Command.Unreadable`: paths that lead to no file.

## Main results

* `Command.result_run_of_unreadable`: runs with such inputs fail;
* `Command.run_of_unreadable`: what such a run leaves.
-/

namespace TextEmbed

/-- An input is embedded only if its source is read to its end, whatever the sink is like. -/
theorem reading_of_result_embedInput {σ : Type} [LineSink σ] {settings : Settings} {input : Input}
    {sink : σ} (h : (embedInput settings input sink).result = .ok ()) :
    (input.source.reading settings.stripComments).result = .ok () := by
  rw [embedInput_eq_play, Transcript.play] at h
  split at h
  next => cases h
  next =>
    simp only [Input.transcript] at h
    cases hread : (input.source.reading settings.stripComments).result with
    | error f => simp [hread] at h
    | ok => rfl

namespace Command

/-- A path that leads to no file: it can't be opened, or there is a directory. -/
def Unreadable (files : FileTree) (path : Path) : Prop :=
  path.isStandard = false ∧ ((∃ f, files.openPath path = .error f) ∨
    ∃ location, files.openPath path = .ok location ∧ files.node? location = some .directory)

variable {options : Options} {world : World}

/-- The output goes to no directory. -/
theorem not_isOutputFile_of_directory {location : Location}
    (h : world.files.node? location = some .directory) :
    ¬ IsOutputFile options world.files location := by
  rintro ⟨created, hcreate, -⟩
  obtain ⟨path, hcreated⟩ := exists_create_of_file hcreate
  exact FileTree.node?_ne_directory_of_target_eq_ok (FileTree.target_of_create_eq_ok hcreated).1 h

/-- A directory that was opened is still one when the inputs are read. -/
theorem Starts.mem_feeds_of_directory {opened : List Opened} {output : Output} {files : FileTree}
    (h : Starts options world opened output files) {name : List Char} {location : Location}
    (hopened : .file name location ∈ opened)
    (hnode : world.files.node? location = some .directory) :
    .given { name, source := [.fault (.system .isADirectory)] } ∈
      Opened.feeds files output world.stdin opened := by
  obtain ⟨i, hi⟩ := List.mem_iff_getElem?.mp hopened
  have hinput := Opened.getElem?_inputs world.files world.stdin hi
  rw [FileTree.source, hnode] at hinput
  apply List.mem_of_getElem?
  apply Opened.getElem?_feeds hinput
  intro found there hthere
  obtain ⟨-, rfl⟩ : name = found ∧ location = there := by simpa [hi] using hthere
  exact h.of_not_isOutputFile (not_isOutputFile_of_directory hnode)

/-- A run fails if an input is no file. -/
theorem result_run_of_unreadable {path : Path} (hpath : path ∈ options.files)
    (h : Unreadable world.files path) : ∃ failure, (run options world).result = .error failure := by
  rcases starts_or options world with ⟨opened, output, files, hstarts⟩ | ⟨e, log, hrun⟩
  · obtain ⟨found, hfound, hopen⟩ := exists_mem_of_mapM_eq_ok hstarts.opened_eq hpath
    obtain ⟨hstandard, ⟨f, hf⟩ | ⟨location, hlocation, hnode⟩⟩ := h
    -- a run that has started has opened the path
    · simp [Opened.ofPath, hstandard, hf] at hopen
    · obtain rfl : Opened.file path.baseName location = found := by
        simpa [Opened.ofPath, hstandard, hlocation] using hopen
      have hfeed := hstarts.mem_feeds_of_directory hfound hnode
      -- a run that succeeds would have read the directory to its end
      cases hresult : (run options world).result with
      | error failure => exact ⟨failure, rfl⟩
      | ok =>
        obtain ⟨stdin, log, hrun⟩ := hstarts.exists_run_eq
        rw [hrun] at hresult
        obtain ⟨before, hbefore⟩ :=
          of_embedEach_eq_ok (result_embedFeeds_of_embedInBlocks hresult) _ hfeed
        have hreading := reading_of_result_embedInput hbefore
        rw [result_reading_directory] at hreading
        cases hreading
  · exact ⟨.run e, by rw [hrun]⟩

/-- A run whose inputs are open has written the header of the first declaration into the file that
its output goes to, and nothing of what that held is left. -/
theorem contents?_run_of_opens (hopens : ∀ path ∈ options.files, Opens world.files path)
    {location : Location} (houtput : IsOutputFile options world.files location) {first : Path}
    (hfirst : options.files.head? = some first) :
    ∃ opened rest, Opened.ofPath world.files first = .ok opened ∧
      (run options world).world.files.contents? location = some
        (ByteSink.lineBytes (Declaration.header options.settings.pointerType
          (Identifier.ofName options.settings.lead opened.name)) ++ rest) := by
  obtain ⟨created, hcreate, hcontents⟩ := houtput
  obtain ⟨opened, hopened⟩ := exists_opened_of_opens hopens
  have hstarts : Starts options world opened (.file location) created := ⟨hopened, hcreate⟩
  have hdevice : Output.device created (.file location) = {} := by
    rcases device_cases created (.file location) with hdevice | ⟨there, hthere, hfull⟩
    · exact hdevice
    · obtain rfl := Output.file.inj hthere
      simp [FileTree.contents?, hfull] at hcontents
  obtain ⟨bytes, stdin, hworld, hheader, -⟩ := hstarts.exists_output hdevice
  -- the first feed has the name of the first input
  obtain ⟨paths, hpaths⟩ := List.head?_eq_some_iff.mp hfirst
  have hrow := forall₂_of_mapM_eq_ok hopened
  rw [hpaths] at hrow
  obtain ⟨found, others, hfound, -, rfl⟩ := List.forall₂_cons_left_iff.mp hrow
  have hnames := Opened.map_name_feeds created (.file location) world.stdin (found :: others)
  rw [List.map_cons] at hnames
  obtain ⟨feed, feeds, hfeeds, hname, -⟩ := List.map_eq_cons_iff.mp hnames
  obtain ⟨rest, hrest⟩ := hheader feed (by rw [hfeeds]; rfl)
  refine ⟨found, rest, hfound, ?_⟩
  rw [hworld, contents?_deliver hcontents, ← hrest, Feed.header, hname]

/-- What a run leaves if an input is no file. It fails, and changes no file but the one that its
output goes to. It changes nothing at all if an input can't be opened. If all inputs can be opened,
which directories can, then the output file is left with the header of the first declaration and
what comes behind it up to the failure. -/
theorem run_of_unreadable (options : Options) (world : World) {path : Path}
    (hpath : path ∈ options.files) (hunreadable : Unreadable world.files path) :
    let outcome := run options world
    (∃ failure, outcome.result = .error failure) ∧
    (∀ location, ¬ IsOutputFile options world.files location →
      outcome.world.files.node? location = world.files.node? location) ∧
    ((∃ input ∈ options.files, ¬ Opens world.files input) → outcome.world = world) ∧
    ((∀ input ∈ options.files, Opens world.files input) →
      ∀ location, IsOutputFile options world.files location →
        ∀ first ∈ options.files.head?, ∃ opened rest,
          Opened.ofPath world.files first = .ok opened ∧
          outcome.world.files.contents? location = some
            (ByteSink.lineBytes (Declaration.header options.settings.pointerType
              (Identifier.ofName options.settings.lead opened.name)) ++ rest)) := by
  intro outcome
  refine ⟨result_run_of_unreadable hpath hunreadable, ?_, ?_, ?_⟩
  · intro location hother
    exact node?_run options world hother
  · rintro ⟨input, hmem, hinput⟩
    rcases starts_or options world with ⟨opened, output, files, hstarts⟩ | ⟨e, log, hrun⟩
    · obtain ⟨found, -, hfound⟩ := exists_mem_of_mapM_eq_ok hstarts.opened_eq hmem
      exact absurd (opens_of_ofPath hfound) hinput
    · simp only [outcome, hrun]
  · intro hopens location houtput first hfirst
    exact contents?_run_of_opens hopens houtput hfirst

/-- For example a directory, which costs the output what was in it. -/
theorem run_of_unreadable_directory :
    let directory := Utf8.encode ['d']
    let output := Utf8.encode ['o']
    let other := Utf8.encode ['x']
    let options : Options := { output := some ⟨output⟩, files := [⟨directory⟩] }
    let files : FileTree :=
      { nodes := [([directory], .directory), ([output], .regular (Utf8.encode "old\n".toList)),
          ([other], .regular [0x79])]
        workingDirectory := [] }
    let outcome := run options { files }
    Options.ofArguments [Utf8.encode "-o".toList, output, directory] = .ok options ∧
      (∃ failure, outcome.result = .error failure) ∧
      outcome.world.files.node? [other] = some (.regular [0x79]) ∧
      outcome.world.files.contents? [output] =
        some (Utf8.encode "static const GLchar* _d =\n".toList) := by
  intro directory output other options files outcome
  have hunreadable : Unreadable files ⟨directory⟩ :=
    ⟨by decide, .inr ⟨[directory], by decide +kernel, by decide⟩⟩
  have hcreated : Output.create files options.output =
      .ok (.file [output], files.truncate [output]) := rfl
  have hother : ¬ IsOutputFile options files [other] := by
    rintro ⟨created, hcreate, -⟩
    obtain ⟨hlocation, -⟩ := Prod.mk.inj (Except.ok.inj (hcreated.symm.trans hcreate))
    exact absurd hlocation (by decide)
  obtain ⟨hfails, hkept, -, -⟩ :=
    run_of_unreadable options { files } (List.mem_singleton_self _) hunreadable
  exact ⟨by decide +kernel, hfails, hkept [other] hother, by decide +kernel⟩

end Command

end TextEmbed
