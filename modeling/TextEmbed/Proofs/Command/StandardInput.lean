import TextEmbed.Command.Program
import TextEmbed.Proofs.Command.Overwriting

/-!
# Standard input as a file

Standard input is an input like any other: a file called `<stdin>` with the same contents. It can be
read once, and all opened inputs share it, so where it is named again there is nothing left of it:
that is like an empty file with the same name. A run can't tell such files from standard input, also
if it fails.

The two runs see different files. They have to agree where the run looks otherwise: at its ordinary
inputs and at its output.

## Main definitions

* `Corresponds`: results that are the same error, or values that go together;
* `Command.StandsIn`: files that stand in for standard input.

## Main results

* `Command.StandsIn.opened_corresponds`: the inputs are opened alike;
* `Command.create_corresponds`: the output is created alike;
* `Command.Replaces.feeds_eq`: the inputs bring the same;
* `Command.standardInput_like_file`: the two runs side by side.
-/

namespace TextEmbed

/-! ## Results -/

/-- Two results that are the same error, or values that go together. -/
inductive Corresponds {ε α β : Type} (r : α → β → Prop) : Except ε α → Except ε β → Prop
  | error (e : ε) : Corresponds r (.error e) (.error e)
  | ok {a : α} {b : β} (h : r a b) : Corresponds r (.ok a) (.ok b)

namespace Corresponds

variable {ε α β γ δ : Type} {r : α → β → Prop} {s : γ → δ → Prop}

/-- Steps behind results that are alike lead to results that are alike. -/
theorem bind {first : Except ε α} {second : Except ε β} {f : α → Except ε γ} {g : β → Except ε δ}
    (h : Corresponds r first second)
    (hlater : ∀ a b, first = .ok a → r a b → Corresponds s (f a) (g b)) :
    Corresponds s (first >>= f) (second >>= g) := by
  cases h with
  | error e => exact .error e
  | ok h => exact hlater _ _ rfl h

theorem mapError {ε' : Type} {first : Except ε α} {second : Except ε β}
    (h : Corresponds r first second) (f : ε → ε') :
    Corresponds r (first.mapError f) (second.mapError f) := by
  cases h with
  | error e => exact .error (f e)
  | ok h => exact .ok h

theorem refl (result : Except ε α) : Corresponds Eq result result := by
  cases result with
  | error e => exact .error e
  | ok a => exact .ok rfl

end Corresponds

namespace Command

/-- The same location, with the same node in both trees. -/
def SameNode (files others : FileTree) (location there : Location) : Prop :=
  there = location ∧ others.node? location = files.node? location

/-- The paths in the second list stand in for those in the first one. An ordinary input stands for
itself. Standard input becomes a file of the name `<stdin>` that has all that is left of standard
input, and leaves nothing of it. -/
inductive StandsIn (options : Options) (files others : FileTree) :
    List UInt8 → List Path → List Path → Prop
  | nil (stdin : List UInt8) : StandsIn options files others stdin [] []
  | ordinary {stdin : List UInt8} {path : Path} {rest later : List Path}
      (hpath : path.isStandard = false)
      (halike : Corresponds (SameNode files others) (files.openPath path) (others.openPath path))
      (hrest : StandsIn options files others stdin rest later) :
      StandsIn options files others stdin (path :: rest) (path :: later)
  | standard {stdin : List UInt8} {path file : Path} {location : Location}
      {rest later : List Path} (hpath : path.isStandard = true) (hfile : file.isStandard = false)
      (hname : file.baseName = Opened.standardInputName)
      (hopen : others.openPath file = .ok location)
      (hnode : others.node? location = some (.regular stdin))
      (hother : ¬ IsOutputFile options others location)
      (hrest : StandsIn options files others [] rest later) :
      StandsIn options files others stdin (path :: rest) (file :: later)

/-- The opened inputs in the second list stand in for those in the first one. -/
inductive Replaces (options : Options) (files others : FileTree) :
    List UInt8 → List Opened → List Opened → Prop
  | nil (stdin : List UInt8) : Replaces options files others stdin [] []
  | file {stdin : List UInt8} {name : List Char} {location : Location} {rest later : List Opened}
      (hnode : others.node? location = files.node? location)
      (hrest : Replaces options files others stdin rest later) :
      Replaces options files others stdin (.file name location :: rest)
        (.file name location :: later)
  | standardInput {stdin : List UInt8} {location : Location} {rest later : List Opened}
      (hnode : others.node? location = some (.regular stdin))
      (hother : ¬ IsOutputFile options others location)
      (hrest : Replaces options files others [] rest later) :
      Replaces options files others stdin (.standardInput :: rest)
        (.file Opened.standardInputName location :: later)

/-- The trees in which the same output was created agree where it goes, and where the trees before
agreed. -/
structure SameOutput (files others : FileTree) (output : Output) (created made : FileTree) :
    Prop where
  ne_root : output ≠ .file []
  node?_eq : ∀ location, output = .file location → made.node? location = created.node? location
  agree : ∀ location, others.node? location = files.node? location →
    made.node? location = created.node? location

variable {options : Options} {files others : FileTree} {stdin : List UInt8}

/-! ## Opening and creating -/

theorem ofPath_of_isStandard {path : Path} (h : path.isStandard = true) (files : FileTree) :
    Opened.ofPath files path = .ok .standardInput := by
  rw [Opened.ofPath, if_pos h]

theorem ofPath_of_not_isStandard {path : Path} (h : path.isStandard = false) (files : FileTree) :
    Opened.ofPath files path =
      (files.openPath path).mapError (.openInput path) >>= fun location =>
        .ok (.file path.baseName location) := by
  rw [Opened.ofPath, h]
  cases files.openPath path <;> rfl

/-- Inputs are opened alike. -/
theorem StandsIn.opened_corresponds {paths later : List Path}
    (h : StandsIn options files others stdin paths later) :
    Corresponds (Replaces options files others stdin) (paths.mapM (Opened.ofPath files))
      (later.mapM (Opened.ofPath others)) := by
  induction h with
  | nil stdin => exact .ok (.nil stdin)
  | ordinary hpath halike _ ih =>
    rw [List.mapM_cons, List.mapM_cons, ofPath_of_not_isStandard hpath,
      ofPath_of_not_isStandard hpath, bind_assoc, bind_assoc]
    refine (halike.mapError _).bind ?_
    rintro location _ - ⟨rfl, hnode⟩
    refine ih.bind ?_
    rintro opened replaced - hreplaces
    exact .ok (.file hnode hreplaces)
  | standard hpath hfile hname hopen hnode hother _ ih =>
    rw [List.mapM_cons, List.mapM_cons, ofPath_of_isStandard hpath,
      ofPath_of_not_isStandard hfile, hopen, hname]
    refine ih.bind ?_
    rintro opened replaced - hreplaces
    exact .ok (.standardInput hnode hother hreplaces)

/-- Creating a file is a matter of where its path leads. -/
theorem create_corresponds_of_target {path : Path}
    (h : Corresponds (SameNode files others) (files.target path) (others.target path)) :
    Corresponds (fun first second => second.1 = first.1 ∧
        SameOutput files others (.file first.1) first.2 second.2)
      (files.create path) (others.create path) := by
  refine (Corresponds.refl (FileTree.checkPath path)).bind ?_
  rintro _ _ - -
  refine (h.mapError Fault.system).bind ?_
  rintro _ location htarget ⟨rfl, hnode⟩
  -- a file can't be created where the root directory is
  have hroot : location ≠ [] := by
    rintro rfl
    exact FileTree.node?_ne_directory_of_target_eq_ok (eq_ok_of_mapError_eq_ok htarget) rfl
  have hagree : ∀ there, others.node? there = files.node? there →
      (others.truncate location).node? there = (files.truncate location).node? there :=
    fun _ => FileTree.node?_truncate_congr hroot hnode
  refine .ok ⟨rfl, by simpa using hroot, ?_, hagree⟩
  rintro _ ⟨⟩
  exact hagree location hnode

theorem create_of_filePath?_eq_some {output : Option Path} {path : Path}
    (h : Output.filePath? output = some path) (files : FileTree) :
    Output.create files output =
      (files.create path).mapError (.createOutput path) >>= fun created =>
        .ok (.file created.1, created.2) := by
  simp only [Output.create, h]
  cases files.create path <;> rfl

/-- The output is created alike if its path leads to the same in both trees. -/
theorem create_corresponds
    (h : ∀ path, Output.filePath? options.output = some path →
      Corresponds (SameNode files others) (files.target path) (others.target path)) :
    Corresponds (fun first second => second.1 = first.1 ∧
        SameOutput files others first.1 first.2 second.2)
      (Output.create files options.output) (Output.create others options.output) := by
  cases hpath : Output.filePath? options.output with
  | none =>
    rw [Output.create, Output.create, hpath]
    exact .ok ⟨rfl, by simp, by simp, fun _ => id⟩
  | some path =>
    rw [create_of_filePath?_eq_some hpath, create_of_filePath?_eq_some hpath]
    refine ((create_corresponds_of_target (h path hpath)).mapError _).bind ?_
    rintro first second - ⟨hlocation, hsame⟩
    exact .ok ⟨congrArg Output.file hlocation, hsame⟩

/-! ## Running -/

/-- What a file gives is a matter of its node. -/
theorem feedOfFile_congr {created made : FileTree} {location : Location}
    (h : made.node? location = created.node? location) (output : Output) (name : List Char) :
    Opened.feedOfFile made output name location =
      Opened.feedOfFile created output name location := by
  have hechoed : output.isEchoedAt made location = output.isEchoedAt created location := by
    cases output with
    | standardOutput => rfl
    | file there => rw [Output.isEchoedAt, Output.isEchoedAt, FileTree.contents?,
        FileTree.contents?, h]
  rw [Opened.feedOfFile, Opened.feedOfFile, hechoed, FileTree.source_congr h]

/-- Inputs that stand in for others bring the same, whatever there is on standard input. -/
theorem Replaces.feeds_eq {opened replaced : List Opened}
    (h : Replaces options files others stdin opened replaced) {output : Output}
    {created made : FileTree}
    (hagree : ∀ location, others.node? location = files.node? location →
      made.node? location = created.node? location)
    (hkept : ∀ location, ¬ IsOutputFile options others location →
      made.node? location = others.node? location ∧ output.isEchoedAt made location = false)
    (left : List UInt8) :
    Opened.feeds made output left replaced = Opened.feeds created output stdin opened := by
  induction h with
  | nil stdin => rfl
  | file hnode _ ih =>
    rw [Opened.feeds, Opened.feeds, ih, feedOfFile_congr (hagree _ hnode)]
  -- the file that stands in for standard input is as it was, and is no echo; it takes all that is
  -- left, so the inputs behind it start from nothing
  | @standardInput stdin location rest later hnode hother _ ih =>
    obtain ⟨hsame, hechoed⟩ := hkept location hother
    have hsource : made.source location = .ofData stdin := by
      rw [FileTree.source, hsame, hnode]
    rw [Opened.feeds, Opened.feeds, ih, Opened.feedOfFile, hechoed, hsource]
    rfl

/-- Delivering the output is a matter of what is where it goes. -/
theorem SameOutput.deliver_alike {output : Output} {created made : FileTree}
    (h : SameOutput files others output created made) (bytes : List UInt8) {world other : World}
    (hcreated : world.files = created) (hmade : other.files = made)
    (hstdout : other.stdout = world.stdout) :
    (output.deliver bytes other).stdout = (output.deliver bytes world).stdout ∧
      ∀ location, others.node? location = files.node? location →
        (output.deliver bytes other).files.node? location =
          (output.deliver bytes world).files.node? location := by
  subst hcreated hmade
  cases output with
  | standardOutput => exact ⟨by simp only [Output.deliver, hstdout], h.agree⟩
  | file there =>
    have hroot : there ≠ [] := by
      rintro rfl
      exact h.ne_root rfl
    refine ⟨hstdout, fun location hlocation => ?_⟩
    exact FileTree.node?_fill_congr hroot (h.node?_eq there rfl) (h.agree location hlocation) bytes

theorem SameOutput.device_eq {output : Output} {created made : FileTree}
    (h : SameOutput files others output created made) :
    Output.device made output = Output.device created output := by
  cases output with
  | standardOutput => rfl
  | file location => rw [Output.device, Output.device, h.node?_eq location rfl]

/-- A run can't tell standard input from files that stand in for it. -/
theorem run_alike {world other : World} {later : List Path}
    (hstands : StandsIn options world.files other.files world.stdin options.files later)
    (houtput : ∀ path, Output.filePath? options.output = some path →
      Corresponds (SameNode world.files other.files) (world.files.target path)
        (other.files.target path))
    (hstdout : other.stdout = world.stdout) :
    let plain := run options world
    let replaced := run { options with files := later } other
    replaced.result = plain.result ∧ replaced.log = plain.log ∧
      replaced.world.stdout = plain.world.stdout ∧
      ∀ location, other.files.node? location = world.files.node? location →
        replaced.world.files.node? location = plain.world.files.node? location := by
  intro plain replaced
  have hopened := hstands.opened_corresponds
  have hcreated := create_corresponds houtput
  generalize hfirst : options.files.mapM (Opened.ofPath world.files) = first,
    hsecond : later.mapM (Opened.ofPath other.files) = second at hopened
  generalize hcreate : Output.create world.files options.output = created,
    hmake : Output.create other.files options.output = made at hcreated
  cases hopened with
  -- neither run gets as far as creating its output
  | error e =>
    simp only [plain, replaced, run, hfirst, hsecond, true_and]
    exact ⟨hstdout, fun _ => id⟩
  | @ok opened standIns hreplaces =>
    cases hcreated with
    | error e =>
      simp only [plain, replaced, run, hfirst, hsecond, hcreate, hmake, true_and]
      exact ⟨hstdout, fun _ => id⟩
    | @ok created made hsame =>
      obtain ⟨output, created⟩ := created
      obtain ⟨output', made⟩ := made
      obtain ⟨rfl, hsame⟩ : output' = output ∧
        SameOutput world.files other.files output created made := hsame
      have hstarts : Starts { options with files := later } other standIns output' made :=
        ⟨hsecond, hmake⟩
      have hplain : Starts options world opened output' created := ⟨hfirst, hcreate⟩
      -- from here on the two runs see the inputs and the device, and these are the same
      have hfeeds := hreplaces.feeds_eq hsame.agree
        (fun location => hstarts.of_not_isOutputFile) other.stdin
      have hdevice := hsame.device_eq
      simp only [plain, replaced, hstarts.run_eq, hplain.run_eq, embedOpened, hfeeds, hdevice,
        true_and]
      exact hsame.deliver_alike _ rfl rfl hstdout

/-! ## Names -/

/-- The name that the declaration of an input is derived from. -/
def inputName (path : Path) : List Char :=
  if path.isStandard then Opened.standardInputName else path.baseName

theorem name_of_ofPath {files : FileTree} {path : Path} {opened : Opened}
    (h : Opened.ofPath files path = .ok opened) : opened.name = inputName path := by
  unfold Opened.ofPath at h
  split at h
  next hstandard =>
    obtain rfl := Except.ok.inj h
    rw [inputName, if_pos hstandard]
    rfl
  next hstandard =>
    split at h
    next location _ =>
      obtain rfl := Except.ok.inj h
      rw [inputName, if_neg hstandard]
      rfl
    next => cases h

theorem map_name_of_opened {files : FileTree} {paths : List Path} {opened : List Opened}
    (h : paths.mapM (Opened.ofPath files) = .ok opened) :
    opened.map Opened.name = paths.map inputName := by
  have hall := forall₂_of_mapM_eq_ok h
  clear h
  induction hall with
  | nil => rfl
  | cons hopened _ ih => rw [List.map_cons, List.map_cons, name_of_ofPath hopened, ih]

/-- Standard input behaves like a file of the name `<stdin>`, once. Take a command line that is
accepted, and another one that asks for the same with other inputs: where the first one names
standard input, files of this name, the first of which has what is on standard input while the
others are empty. If both runs find the same otherwise, they exit alike, with the same diagnostics,
the same standard output, and the same in every file that was the same for both. And in a run that
succeeds, each input that is standard input has its own declaration where it stands, under the name
`<stdin>`. -/
theorem standardInput_like_file {arguments asked : List (List UInt8)} {options : Options}
    {later : List Path} (haccepted : Options.ofArguments arguments = .ok options)
    (hasked : Options.ofArguments asked = .ok { options with files := later }) {world other : World}
    (hstands : StandsIn options world.files other.files world.stdin options.files later)
    (houtput : ∀ path, Output.filePath? options.output = some path →
      Corresponds (SameNode world.files other.files) (world.files.target path)
        (other.files.target path))
    (hstdout : other.stdout = world.stdout) :
    let plain := execute arguments world
    let replaced := execute asked other
    replaced.exitCode = plain.exitCode ∧ replaced.stderr = plain.stderr ∧
      replaced.world.stdout = plain.world.stdout ∧
      (∀ location, other.files.node? location = world.files.node? location →
        replaced.world.files.node? location = plain.world.files.node? location) ∧
      (plain.exitCode = 0 →
        ∃ (output : Output) (files : FileTree) (stdin : List UInt8)
          (declarations : List Declaration),
          Output.create world.files options.output = .ok (output, files) ∧
          plain.world = output.deliver
            (Utf8.encode (declarations.flatMap (Declaration.render options.settings.pointerType)))
            { world with files, stdin } ∧
          declarations.map Declaration.identifier = options.files.map fun path =>
            Identifier.ofName options.settings.lead
              (if path.isStandard then "<stdin>".toList else path.baseName)) := by
  intro plain replaced
  obtain ⟨hresult, hlog, hwritten, hfiles⟩ := run_alike hstands houtput hstdout
  simp only [plain, replaced, execute_eq haccepted, execute_eq hasked, hresult, hlog]
  refine ⟨trivial, rfl, hwritten, hfiles, ?_⟩
  intro hexit
  have hok : (run options world).result = .ok () := by
    cases hrun : (run options world).result with
    | error e => simp [hrun, runExitCode] at hexit
    | ok => rfl
  obtain ⟨opened, output, files, hstarts, hdevice⟩ :=
    starts_of_result_eq_ok (Options.files_ne_nil haccepted) hok
  obtain ⟨bytes, stdin, hworld, -, hdeclared⟩ := hstarts.exists_output hdevice
  obtain ⟨declarations, hdeclares, rfl⟩ := hdeclared hok
  refine ⟨output, files, stdin, declarations, hstarts.created_eq, hworld, ?_⟩
  rw [map_identifier_of_declares hdeclares, Opened.map_name_feeds,
    map_name_of_opened hstarts.opened_eq, List.map_map]
  rfl

/-- For example where standard input is named twice behind an ordinary file, in two spellings. -/
theorem standardInput_like_file_twice :
    let name := Utf8.encode ['a']
    let slash := [Path.slash]
    let first := Utf8.encode ['d']
    let second := Utf8.encode ['e']
    let called := Utf8.encode "<stdin>".toList
    let world : World :=
      { files := { nodes := [([name], .regular [0x79, 0x0A])], workingDirectory := [] }
        stdin := [0x78, 0x0A] }
    let other : World :=
      { files :=
          { nodes := [([name], .regular [0x79, 0x0A]), ([first], .directory),
              ([second], .directory), ([first, called], .regular [0x78, 0x0A]),
              ([second, called], .regular [])]
            workingDirectory := [] } }
    let plain := execute [name, [Shape.dash], Utf8.encode "--".toList, Utf8.encode "-//.".toList]
      world
    let replaced := execute [name, first ++ slash ++ called, second ++ slash ++ called] other
    replaced.exitCode = plain.exitCode ∧ replaced.stderr = plain.stderr ∧
      replaced.world.stdout = plain.world.stdout ∧
      replaced.world.files.node? [name] = plain.world.files.node? [name] ∧
      ∃ declarations : List Declaration,
        plain.world.stdout =
          Utf8.encode (declarations.flatMap (Declaration.render "GLchar*".toList)) ∧
        declarations.map Declaration.identifier =
          ["_a".toList, "__stdin_".toList, "__stdin_".toList] := by
  intro name slash first second called world other plain replaced
  let options : Options := { files := [⟨name⟩, ⟨[Shape.dash]⟩, ⟨Utf8.encode "-//.".toList⟩] }
  let later : List Path := [⟨name⟩, ⟨first ++ slash ++ called⟩, ⟨second ++ slash ++ called⟩]
  have haccepted : Options.ofArguments [name, [Shape.dash], Utf8.encode "--".toList,
      Utf8.encode "-//.".toList] = .ok options := by decide +kernel
  have hasked : Options.ofArguments [name, first ++ slash ++ called, second ++ slash ++ called] =
      .ok { options with files := later } := by decide +kernel
  have hother : ∀ location, ¬ IsOutputFile options other.files location := by
    rintro location ⟨created, hcreate, -⟩
    cases hcreate
  have hopen : world.files.openPath ⟨name⟩ = .ok [name] ∧
      other.files.openPath ⟨name⟩ = .ok [name] ∧
      other.files.openPath ⟨first ++ slash ++ called⟩ = .ok [first, called] ∧
      other.files.openPath ⟨second ++ slash ++ called⟩ = .ok [second, called] := by decide +kernel
  obtain ⟨hplain, hsame, hfirst, hsecond⟩ := hopen
  have halike : Corresponds (SameNode world.files other.files) (world.files.openPath ⟨name⟩)
      (other.files.openPath ⟨name⟩) := by
    rw [hplain, hsame]
    exact .ok ⟨rfl, by decide⟩
  have hstands : StandsIn options world.files other.files world.stdin options.files later := by
    refine .ordinary (by decide) halike (.standard (by decide) (by decide) ?_ hfirst (by decide)
      (hother _) (.standard (by decide) (by decide) ?_ hsecond (by decide) (hother _) (.nil [])))
    · decide +kernel
    · decide +kernel
  obtain ⟨hexit, hstderr, hstdout, hfiles, hdeclared⟩ :=
    standardInput_like_file haccepted hasked hstands (by simp [options, Output.filePath?]) rfl
  obtain ⟨output, files, stdin, declarations, hcreate, hworld, hnames⟩ :=
    hdeclared (by decide +kernel)
  obtain ⟨rfl, rfl⟩ := Prod.mk.inj (Except.ok.inj hcreate)
  refine ⟨hexit, hstderr, hstdout, hfiles [name] (by decide), declarations, ?_, ?_⟩
  · exact congrArg World.stdout hworld
  · rw [hnames]
    decide +kernel

end Command

end TextEmbed
