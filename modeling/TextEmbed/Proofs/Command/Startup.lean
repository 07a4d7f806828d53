import TextEmbed.Proofs.Command.Opening
import TextEmbed.Proofs.Embedding.Errors

/-!
# Starting a run

A run starts completely or not at all. All inputs are opened before the output is created, and the
output is created before anything is read, so a run that doesn't start leaves everything as it was.
The error names the first input that can't be opened, and the output only if there is no such input.
A run that starts has neither of these errors: what fails then is reading, writing, or handing over
the last block.

## Main definitions

* `Command.Starts`: runs that start, with what they have opened and created.

## Main results

* `Command.Starts.run_eq` and `Command.starts_or`: a run that starts embeds, and any other changes
  nothing;
* `Command.of_result_embedInBlocks`: the errors of a run that has started;
* `Command.run_all_or_nothing`: what a run leaves that doesn't start.
-/

namespace TextEmbed.Command

/-- A run that starts: all its inputs are opened, and its output is created among `files`. -/
structure Starts (options : Options) (world : World) (opened : List Opened) (output : Output)
    (files : FileTree) : Prop where
  opened_eq : options.files.mapM (Opened.ofPath world.files) = .ok opened
  created_eq : Output.create world.files options.output = .ok (output, files)

variable {options : Options} {world : World}

/-- A run that starts embeds what it has opened. -/
theorem Starts.run_eq {opened : List Opened} {output : Output} {files : FileTree}
    (h : Starts options world opened output files) :
    let outcome := embedOpened options.settings opened output { world with files }
    run options world =
      { outcome with
        log := (Output.filePath? options.output).toList.map .creating ++ outcome.log } := by
  simp only [run, h.opened_eq, h.created_eq]

/-- The output that is created is standard output, or the file that was asked for. -/
theorem create_cases (files : FileTree) (output : Option Path) :
    (Output.filePath? output = none ∧ Output.create files output = .ok (.standardOutput, files)) ∨
      (∃ path location created, Output.filePath? output = some path ∧
        files.create path = .ok (location, created) ∧
        Output.create files output = .ok (.file location, created)) ∨
      ∃ path f, Output.filePath? output = some path ∧ files.create path = .error f ∧
        Output.create files output = .error (.createOutput path f) := by
  cases hpath : Output.filePath? output with
  | none => exact .inl ⟨rfl, by simp only [Output.create, hpath]⟩
  | some path =>
    cases hcreate : files.create path with
    | error f =>
      exact .inr (.inr ⟨path, f, rfl, hcreate, by simp only [Output.create, hpath, hcreate]⟩)
    | ok created =>
      exact .inr (.inl ⟨path, created.1, created.2, rfl, hcreate,
        by simp only [Output.create, hpath, hcreate]⟩)

/-- An output that was created is standard output, or a file that was created. -/
theorem of_create_eq_ok {files created : FileTree} {asked : Option Path} {output : Output}
    (h : Output.create files asked = .ok (output, created)) :
    (output = .standardOutput ∧ created = files) ∨
      ∃ path location, output = .file location ∧ files.create path = .ok (location, created) := by
  rcases create_cases files asked with
    ⟨-, hcreate⟩ | ⟨path, location, made, -, hmade, hcreate⟩ | ⟨path, f, -, -, hcreate⟩
  · obtain ⟨rfl, rfl⟩ := Prod.mk.inj (Except.ok.inj (hcreate.symm.trans h))
    exact .inl ⟨rfl, rfl⟩
  · obtain ⟨rfl, rfl⟩ := Prod.mk.inj (Except.ok.inj (hcreate.symm.trans h))
    exact .inr ⟨path, location, rfl, hmade⟩
  · cases hcreate.symm.trans h

theorem exists_create_of_file {files created : FileTree} {asked : Option Path} {location : Location}
    (h : Output.create files asked = .ok (.file location, created)) :
    ∃ path, files.create path = .ok (location, created) := by
  rcases of_create_eq_ok h with ⟨houtput, -⟩ | ⟨path, there, houtput, hcreated⟩
  · cases houtput
  · obtain rfl := Output.file.inj houtput
    exact ⟨path, hcreated⟩

/-- A run starts if its inputs can be opened and the file that its output goes to can be created. -/
theorem starts_of_create {opened : List Opened} {path : Path} {location : Location}
    {created : FileTree}
    (hopened : options.files.mapM (Opened.ofPath world.files) = .ok opened)
    (hpath : Output.filePath? options.output = some path)
    (hcreated : world.files.create path = .ok (location, created)) :
    Starts options world opened (.file location) created where
  opened_eq := hopened
  created_eq := by simp only [Output.create, hpath, hcreated]

/-- A run that doesn't start fails and changes nothing. -/
theorem starts_or (options : Options) (world : World) :
    (∃ opened output files, Starts options world opened output files) ∨
      ∃ e log, run options world = { result := .error (.run e), world, log } := by
  cases hopened : options.files.mapM (Opened.ofPath world.files) with
  | error e => exact .inr ⟨e, [], by simp only [run, hopened]⟩
  | ok opened =>
    cases hcreated : Output.create world.files options.output with
    | error e => exact .inr ⟨e, _, by simp only [run, hopened, hcreated]; rfl⟩
    | ok created => exact .inl ⟨opened, created.1, created.2, hopened, hcreated⟩

/-- Embedding in blocks fails within the declaration of an input, or in handing over the last
block. -/
theorem of_result_embedInBlocks {settings : Settings} {feeds : List Feed} {device : ByteSink}
    {failure : Failure} (h : (embedInBlocks settings feeds device).1 = .error failure) :
    (∃ feed ∈ feeds, ∃ e, e.IsWithin feed.name ∧ failure = .run e) ∨
      ∃ f, failure = .context "couldn't flush the output".toList (.fault f) := by
  dsimp only [embedInBlocks] at h
  cases hresult : (embedFeeds settings feeds { device }).result with
  | error e =>
    simp only [hresult] at h
    obtain ⟨feed, hfeed, he⟩ := isWithin_of_embedFeeds hresult
    exact .inl ⟨feed, hfeed, e, he, (Except.error.inj h).symm⟩
  | ok =>
    simp only [hresult, withMessage] at h
    split at h
    next => cases h
    next f hf => exact .inr ⟨f, (Except.error.inj h).symm⟩

/-- A run that has started has no error of opening or creating files. -/
theorem result_embedOpened_ne (settings : Settings) (opened : List Opened) (output : Output)
    (world : World) (path : Path) (f : Fault) :
    (embedOpened settings opened output world).result ≠ .error (.run (.openInput path f)) ∧
      (embedOpened settings opened output world).result ≠ .error (.run (.createOutput path f)) := by
  -- both errors are within no declaration, and have no message on top
  have hne : ∀ e, (∀ name, ¬ RunError.IsWithin name e) →
      (embedOpened settings opened output world).result ≠ .error (.run e) := by
    intro e he hresult
    rcases of_result_embedInBlocks hresult with ⟨feed, -, found, hfound, heq⟩ | ⟨_, heq⟩
    · obtain rfl := Failure.run.inj heq
      exact he feed.name hfound
    · cases heq
  exact ⟨hne _ (by simp [RunError.IsWithin]), hne _ (by simp [RunError.IsWithin])⟩

/-- A run starts completely or not at all. If an input can't be opened then the run fails in opening
the first such input, wherever the output goes; if all of them can be opened but the output can't be
created, it fails in creating the output. In both cases nothing has changed, nothing was read or
written, and no declaration was reported. Otherwise the run has neither of these errors. -/
theorem run_all_or_nothing (options : Options) (world : World) :
    let outcome := run options world
    ((∃ path ∈ options.files, ¬ Opens world.files path) →
      ∃ before path after f, options.files = before ++ path :: after ∧
        (∀ earlier ∈ before, Opens world.files earlier) ∧ ¬ Opens world.files path ∧
        world.files.openPath path = .error f ∧
        outcome = { result := .error (.run (.openInput path f)), world, log := [] }) ∧
    ((∀ path ∈ options.files, Opens world.files path) →
      (∀ path f, Output.filePath? options.output = some path →
        world.files.create path = .error f →
        outcome =
          { result := .error (.run (.createOutput path f)), world, log := [.creating path] }) ∧
      ((∀ path, Output.filePath? options.output = some path →
          ∃ created, world.files.create path = .ok created) →
        ∀ path f, outcome.result ≠ .error (.run (.openInput path f)) ∧
          outcome.result ≠ .error (.run (.createOutput path f)))) := by
  intro outcome
  rcases forall_opens_or world.files options.files with
    ⟨hopens, opened, hopened⟩ | ⟨before, path, after, f, hfiles, hbefore, hpath, hf, herror⟩
  · refine ⟨?_, fun _ => ⟨?_, ?_⟩⟩
    · rintro ⟨path, hmem, hpath⟩
      exact absurd (hopens path hmem) hpath
    · intro path f hpath hcreate
      simp only [outcome, run, hopened, Output.create, hpath, hcreate]
      rfl
    · intro hcreate path f
      have hstarts : ∃ output files, Starts options world opened output files := by
        rcases create_cases world.files options.output with
          ⟨-, hcreated⟩ | ⟨_, _, _, -, -, hcreated⟩ | ⟨there, f, hthere, hfailed, -⟩
        · exact ⟨_, _, hopened, hcreated⟩
        · exact ⟨_, _, hopened, hcreated⟩
        · obtain ⟨created, hcreated⟩ := hcreate there hthere
          rw [hfailed] at hcreated
          cases hcreated
      obtain ⟨output, files, hstarts⟩ := hstarts
      simp only [outcome, hstarts.run_eq]
      exact result_embedOpened_ne options.settings opened output { world with files } path f
  · refine ⟨fun _ => ⟨before, path, after, f, hfiles, hbefore, hpath, hf, ?_⟩, ?_⟩
    · simp only [outcome, run, herror]
    · intro hopens
      refine absurd (hopens path ?_) hpath
      simp [hfiles]

/-- For example where the third input is missing, behind standard input and the file that is the
output as well. -/
theorem run_all_or_nothing_missing :
    let name := Utf8.encode ['a']
    let missing := Utf8.encode ['m']
    let world : World :=
      { files := { nodes := [([name], .regular [0x78, 0x0A])], workingDirectory := [] }
        stdin := [0x79, 0x0A] }
    let options : Options :=
      { output := some ⟨name⟩, files := [.standard, ⟨name⟩, ⟨missing⟩, ⟨missing ++ name⟩] }
    run options world =
      { result := .error (.run (.openInput ⟨missing⟩ (.system .noSuchEntry)))
        world
        log := [] } := by
  intro name missing world options
  have hstandard : Opens world.files .standard := .inl (by decide)
  have hname : Opens world.files ⟨name⟩ := .inr ⟨[name], by decide +kernel⟩
  have hopen : world.files.openPath ⟨missing⟩ = .error (.system .noSuchEntry) := by decide +kernel
  have hmissing : ¬ Opens world.files ⟨missing⟩ := by
    rintro (h | ⟨location, h⟩)
    · exact absurd h (by decide)
    · rw [hopen] at h
      cases h
  obtain ⟨before, path, after, f, hfiles, hbefore, hpath, hf, houtcome⟩ :=
    (run_all_or_nothing options world).1 ⟨⟨missing⟩, by simp [options], hmissing⟩
  -- the first path that can't be opened is the third one
  obtain rfl : path = ⟨missing⟩ := by
    rcases before with _ | ⟨first, _ | ⟨second, _ | ⟨third, before⟩⟩⟩
    · obtain ⟨rfl, -⟩ := List.cons.inj hfiles
      exact absurd hstandard hpath
    · obtain ⟨-, hfiles⟩ := List.cons.inj hfiles
      obtain ⟨rfl, -⟩ := List.cons.inj hfiles
      exact absurd hname hpath
    · obtain ⟨-, hfiles⟩ := List.cons.inj hfiles
      obtain ⟨-, hfiles⟩ := List.cons.inj hfiles
      exact (List.cons.inj hfiles).1.symm
    · obtain ⟨-, hfiles⟩ := List.cons.inj hfiles
      obtain ⟨-, hfiles⟩ := List.cons.inj hfiles
      obtain ⟨rfl, -⟩ := List.cons.inj hfiles
      exact absurd (hbefore _ (by simp)) hmissing
  obtain rfl : Fault.system .noSuchEntry = f := Except.error.inj (hopen.symm.trans hf)
  exact houtcome

end TextEmbed.Command
