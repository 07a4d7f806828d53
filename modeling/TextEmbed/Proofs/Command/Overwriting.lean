import TextEmbed.Proofs.Command.FullDevice
import TextEmbed.Proofs.Embedding.Feeds
import TextEmbed.Proofs.Embedding.IllFormed

/-!
# What runs overwrite

A run changes one file, the one that its output goes to. This is emptied when the inputs are open
and nothing has been read, so an input that is the output as well loses its contents and embeds what
the run has put out. Every other input keeps its contents, and embeds them.

## Main definitions

* `Command.IsOutputFile`: the file that the output of a run goes to.

## Main results

* `Command.node?_run`: what a run changes;
* `Command.Starts.exists_output`: what a run puts out that has started;
* `Command.run_embeds_other_inputs`: what becomes of the inputs that are not the output;
* `Command.run_overwrites_input`: what becomes of one that is.
-/

namespace TextEmbed.Command

/-- The output goes to a file at `location`, which is emptied, or made if there is none. -/
def IsOutputFile (options : Options) (files : FileTree) (location : Location) : Prop :=
  ∃ created, Output.create files options.output = .ok (.file location, created) ∧
    (created.contents? location).isSome

/-! ## What stays as it was -/

/-- Output changes no node but that of the file that it goes to. -/
theorem node?_deliver {output : Output} (hroot : output ≠ .file []) (bytes : List UInt8)
    (world : World) {location : Location}
    (hother : output.isEchoedAt world.files location = false) :
    (output.deliver bytes world).files.node? location = world.files.node? location := by
  cases output with
  | standardOutput => rfl
  | file created =>
    have hcreated : created ≠ [] := by
      rintro rfl
      exact hroot rfl
    by_cases hlocation : location = created
    -- where the output goes and can't be read again, there is a device, which keeps nothing
    · subst hlocation
      have hcontents : world.files.contents? location = none := by
        simpa [Output.isEchoedAt] using hother
      simp only [Output.deliver, FileTree.fill_eq_self hcontents]
    · exact FileTree.node?_fill_of_ne world.files hcreated hlocation bytes

/-- Output to a file takes the place of what is in it. -/
theorem contents?_deliver {world : World} {location : Location}
    (h : (world.files.contents? location).isSome) (bytes : List UInt8) :
    ((Output.file location).deliver bytes world).files.contents? location = some bytes := by
  obtain ⟨old, hold⟩ := Option.isSome_iff_exists.mp h
  have hroot : location ≠ [] := by
    rintro rfl
    cases hold
  have hnode : world.files.node? location = some (.regular old) := by
    unfold FileTree.contents? at hold
    split at hold
    next contents hcontents => rw [hcontents, Option.some.inj hold]
    next => cases hold
  rw [Output.deliver, FileTree.contents?, FileTree.node?_fill hroot hnode, if_pos rfl]

section Starts

variable {options : Options} {world : World} {opened : List Opened} {output : Output}
  {files : FileTree}

theorem Starts.output_ne_root (h : Starts options world opened output files) :
    output ≠ .file [] := by
  rintro rfl
  obtain ⟨path, hcreated⟩ := exists_create_of_file h.created_eq
  exact (FileTree.of_create_eq_ok hcreated).1 rfl

/-- What isn't the file that the output goes to is as it was when the inputs are read, and nothing
can be read there of the output. -/
theorem Starts.of_not_isOutputFile (h : Starts options world opened output files)
    {location : Location} (hother : ¬ IsOutputFile options world.files location) :
    files.node? location = world.files.node? location ∧
      output.isEchoedAt files location = false := by
  rcases of_create_eq_ok h.created_eq with ⟨rfl, rfl⟩ | ⟨path, there, rfl, hcreated⟩
  · exact ⟨rfl, rfl⟩
  · obtain ⟨hroot, htruncate⟩ := FileTree.of_create_eq_ok hcreated
    by_cases hlocation : location = there
    -- a device, which takes the output and has no contents
    · subst hlocation
      have hcontents : files.contents? location = none := by
        by_contra hsome
        exact hother ⟨files, h.created_eq, Option.isSome_iff_ne_none.mpr hsome⟩
      have hsame : files = world.files := by
        rw [htruncate]
        apply FileTree.truncate_eq_self hroot
        rw [← htruncate, hcontents]
      exact ⟨by rw [hsame], by simp [Output.isEchoedAt, hcontents]⟩
    · refine ⟨?_, by simp [Output.isEchoedAt, Ne.symm hlocation]⟩
      rw [htruncate, FileTree.node?_truncate_of_ne world.files hroot hlocation]

/-- A run that has started changes the world by its output, and by what it reads of standard
input. -/
theorem Starts.exists_run_eq (h : Starts options world opened output files) :
    let feeds := Opened.feeds files output world.stdin opened
    let embedded := embedInBlocks options.settings feeds (Output.device files output)
    ∃ stdin log, run options world =
      { result := embedded.1, log
        world := output.deliver embedded.2.sink.device.written.toList
          { world with files, stdin } } := by
  intro feeds embedded
  rw [h.run_eq]
  exact ⟨_, _, rfl⟩

end Starts

/-- A run changes the file that its output goes to, and nothing else. -/
theorem node?_run (options : Options) (world : World) {location : Location}
    (hother : ¬ IsOutputFile options world.files location) :
    (run options world).world.files.node? location = world.files.node? location := by
  rcases starts_or options world with ⟨opened, output, files, hstarts⟩ | ⟨e, log, hrun⟩
  · obtain ⟨hnode, hechoed⟩ := hstarts.of_not_isOutputFile hother
    obtain ⟨stdin, log, hrun⟩ := hstarts.exists_run_eq
    rw [hrun, ← hnode]
    exact node?_deliver hstarts.output_ne_root _ { world with files, stdin } hechoed
  · rw [hrun]

/-! ## What is put out -/

theorem device_cases (files : FileTree) (output : Output) :
    Output.device files output = {} ∨
      ∃ location, output = .file location ∧ files.node? location = some .fullDevice := by
  cases output with
  | standardOutput => exact .inl rfl
  | file location =>
    by_cases hfull : files.node? location = some .fullDevice
    · exact .inr ⟨location, rfl, hfull⟩
    · exact .inl (by simp only [Output.device])

/-- A run that has started puts out the header of its first declaration at first, and one
declaration per input if it succeeds, unless its output goes to a full device. -/
theorem Starts.exists_output {options : Options} {world : World} {opened : List Opened}
    {output : Output} {files : FileTree} (h : Starts options world opened output files)
    (hdevice : Output.device files output = {}) :
    let feeds := Opened.feeds files output world.stdin opened
    ∃ bytes stdin,
      (run options world).world = output.deliver bytes { world with files, stdin } ∧
      (∀ first ∈ feeds.head?, ByteSink.lineBytes (first.header options.settings) <+: bytes) ∧
      ((run options world).result = .ok () →
        ∃ declarations, List.Forall₂ (Feed.Declares options.settings) feeds declarations ∧
          bytes = Utf8.encode
            (declarations.flatMap (Declaration.render options.settings.pointerType))) := by
  intro feeds
  have hlimit : ({} : ByteSink).limit = none := rfl
  obtain ⟨bytes, hwritten, hheader, hdeclared⟩ :=
    exists_output_embedInBlocks options.settings feeds hlimit (by simp)
  obtain ⟨stdin, log, hrun⟩ := h.exists_run_eq
  rw [hdevice] at hrun
  rw [hrun]
  refine ⟨bytes, stdin, ?_, hheader, hdeclared⟩
  -- there is nothing in the device before the run
  show output.deliver _ { world with files, stdin } =
    output.deliver bytes { world with files, stdin }
  rw [hwritten]
  rfl

/-! ## What inputs bring -/

namespace Opened

/-- An input brings some bytes, or fails at once because it is a directory. -/
theorem brings_or_of_mem_inputs {files : FileTree} {stdin : List UInt8} {opened : List Opened}
    {input : Input} (h : input ∈ inputs files stdin opened) :
    (∃ data, input.source.Brings data) ∨ input.source = [.fault (.system .isADirectory)] := by
  have hdata : ∀ data, (Source.ofData data).Brings data := fun data =>
    Source.brings_iff.mpr (Source.events_ofData data)
  fun_induction inputs files stdin opened with
  | case1 => cases h
  | case2 stdin rest ih =>
    rcases List.mem_cons.mp h with rfl | h
    · exact .inl ⟨stdin, hdata stdin⟩
    · exact ih h
  | case3 stdin name location rest ih =>
    rcases List.mem_cons.mp h with rfl | h
    · simp only [FileTree.source]
      split
      next contents _ => exact .inl ⟨contents, hdata contents⟩
      next => exact .inr rfl
      -- devices bring nothing
      next => exact .inl ⟨[], hdata []⟩
      next => exact .inl ⟨[], hdata []⟩
      next => exact .inl ⟨[], hdata []⟩
    · exact ih h

end Opened

/-- Nothing can be read of a directory. -/
theorem result_reading_directory (stripComments : Bool) :
    (Source.reading stripComments [.fault (.system .isADirectory)]).result =
      .error (.system .isADirectory) := by
  rw [Source.reading_eq]
  rfl

/-- Declarations have the names of their feeds. -/
theorem map_identifier_of_declares {settings : Settings} {feeds : List Feed}
    {declarations : List Declaration}
    (h : List.Forall₂ (Feed.Declares settings) feeds declarations) :
    declarations.map Declaration.identifier =
      (feeds.map Feed.name).map (Identifier.ofName settings.lead) := by
  induction h with
  | nil => rfl
  | cons hdeclares _ ih =>
    rw [List.map_cons, List.map_cons, List.map_cons, ih]
    cases hdeclares <;> rfl

/-- An input that can be read to its end delivers a file, whose declaration it has. -/
theorem exists_delivers_of_declares {settings : Settings} {files : FileTree} {stdin : List UInt8}
    {opened : List Opened} {input : Input} (hinput : input ∈ Opened.inputs files stdin opened)
    {declaration : Declaration} (h : (Feed.given input).Declares settings declaration) :
    ∃ file, input.Delivers file ∧ declaration = file.declaration settings := by
  cases h with
  | given _ hreading =>
    rcases Opened.brings_or_of_mem_inputs hinput with ⟨data, hdata⟩ | hdirectory
    · obtain ⟨text, htext⟩ := Source.exists_delivers_of_reading hdata hreading
      have hdelivers : input.Delivers { name := input.name, text } := ⟨rfl, htext⟩
      exact ⟨_, hdelivers, (reading_of_delivers settings hdelivers).2⟩
    · rw [hdirectory, result_reading_directory] at hreading
      cases hreading

/-! ## Runs -/

/-- A run that succeeds has started, and its output doesn't go to a full device. -/
theorem starts_of_result_eq_ok {options : Options} {world : World} (hfiles : options.files ≠ [])
    (h : (run options world).result = .ok ()) :
    ∃ opened output files, Starts options world opened output files ∧
      Output.device files output = {} := by
  rcases starts_or options world with ⟨opened, output, files, hstarts⟩ | ⟨e, log, hrun⟩
  · rcases device_cases files output with hdevice | ⟨location, rfl, hfull⟩
    · exact ⟨opened, output, files, hstarts, hdevice⟩
    · have hfailed := result_run_of_full hfiles hstarts hfull
      rw [h] at hfailed
      dsimp only at hfailed
      split at hfailed <;> cases hfailed
  · rw [hrun] at h
    cases h

/-- A run leaves all files as they were, except the one that its output goes to. If it succeeds, it
puts out one declaration per input, in order. The declaration of an input embeds what the input had
before the run, unless the output goes to that file. -/
theorem run_embeds_other_inputs {arguments : List (List UInt8)} {options : Options}
    (haccepted : Options.ofArguments arguments = .ok options) (world : World) :
    let outcome := run options world
    (∀ location contents, world.files.contents? location = some contents →
      ¬ IsOutputFile options world.files location →
      outcome.world.files.contents? location = some contents) ∧
    (outcome.result = .ok () →
      ∃ (opened : List Opened) (output : Output) (files : FileTree) (stdin : List UInt8)
        (declarations : List Declaration),
        options.files.mapM (Opened.ofPath world.files) = .ok opened ∧
        Output.create world.files options.output = .ok (output, files) ∧
        outcome.world = output.deliver
          (Utf8.encode (declarations.flatMap (Declaration.render options.settings.pointerType)))
          { world with files, stdin } ∧
        declarations.map Declaration.identifier =
          opened.map (fun input => Identifier.ofName options.settings.lead input.name) ∧
        ∀ (i : Nat) (input : Input),
          (Opened.inputs world.files world.stdin opened)[i]? = some input →
          (∀ name location, opened[i]? = some (.file name location) →
            ¬ IsOutputFile options world.files location) →
          ∃ file, input.Delivers file ∧
            declarations[i]? = some (file.declaration options.settings)) := by
  intro outcome
  refine ⟨?_, ?_⟩
  · intro location contents hcontents hother
    rw [← hcontents, FileTree.contents?, FileTree.contents?, node?_run options world hother]
  · intro hresult
    obtain ⟨opened, output, files, hstarts, hdevice⟩ :=
      starts_of_result_eq_ok (Options.files_ne_nil haccepted) hresult
    obtain ⟨bytes, stdin, hworld, -, hdeclared⟩ := hstarts.exists_output hdevice
    obtain ⟨declarations, hdeclares, rfl⟩ := hdeclared hresult
    refine ⟨opened, output, files, stdin, declarations, hstarts.opened_eq, hstarts.created_eq,
      hworld, ?_, ?_⟩
    · rw [map_identifier_of_declares hdeclares, Opened.map_name_feeds, List.map_map]
      rfl
    -- an input that isn't the output is as it was when it is read, and has a source of its own
    · intro i input hinput hother
      have hfeed := Opened.getElem?_feeds hinput fun name location hopened =>
        hstarts.of_not_isOutputFile (hother name location hopened)
      obtain ⟨declaration, hdeclaration, hdeclares⟩ := exists_getElem?_of_forall₂ hdeclares hfeed
      obtain ⟨file, hfile, rfl⟩ :=
        exists_delivers_of_declares (List.mem_of_getElem? hinput) hdeclares
      exact ⟨file, hfile, hdeclaration⟩

/-- For example behind an input that is the output. -/
theorem run_embeds_other_inputs_behind_output :
    let name := Utf8.encode ['a']
    let other := Utf8.encode ['b']
    let options : Options := { output := some ⟨name⟩, files := [⟨name⟩, ⟨other⟩] }
    let files : FileTree :=
      { nodes := [([name], .regular (Utf8.encode "old\n".toList)), ([other], .regular [0x78, 0x0A])]
        workingDirectory := [] }
    let outcome := run options { files }
    Options.ofArguments [Utf8.encode "-o".toList, name, name, other] = .ok options ∧
      outcome.result = .ok () ∧
      outcome.world.files.contents? [other] = some [0x78, 0x0A] ∧
      ∃ declarations : List Declaration,
        declarations.map Declaration.identifier = [['_', 'a'], ['_', 'b']] ∧
        declarations[1]? = some { identifier := ['_', 'b'], body := [['x']] } ∧
        outcome.world.files.contents? [name] = some (Utf8.encode
          (declarations.flatMap (Declaration.render options.settings.pointerType))) := by
  intro name other options files outcome
  have haccepted : Options.ofArguments [Utf8.encode "-o".toList, name, name, other] =
      .ok options := by decide +kernel
  have hresult : outcome.result = .ok () := by decide +kernel
  have hopened : options.files.mapM (Opened.ofPath files) =
      .ok [.file ['a'] [name], .file ['b'] [other]] := by decide +kernel
  have hcreated : Output.create files options.output =
      .ok (.file [name], files.truncate [name]) := rfl
  have hother : ¬ IsOutputFile options files [other] := by
    rintro ⟨created, hcreate, -⟩
    obtain ⟨hlocation, -⟩ := Prod.mk.inj (Except.ok.inj (hcreated.symm.trans hcreate))
    exact absurd hlocation (by decide)
  obtain ⟨hkept, hembeds⟩ := run_embeds_other_inputs haccepted { files }
  obtain ⟨opened, output, created, stdin, declarations, hopened', hcreated', hworld, hnames,
    hdeclarations⟩ := hembeds hresult
  obtain rfl := Except.ok.inj (hopened.symm.trans hopened')
  obtain ⟨rfl, rfl⟩ := Prod.mk.inj (Except.ok.inj (hcreated.symm.trans hcreated'))
  have hsecond : ∀ file location, [Opened.file ['a'] [name], .file ['b'] [other]][1]? =
      some (.file file location) → ¬ IsOutputFile options files location := by
    rintro _ _ ⟨⟩
    exact hother
  obtain ⟨⟨_, text⟩, ⟨rfl, hsource⟩, hdeclaration⟩ :=
    hdeclarations 1 { name := ['b'], source := .ofData [0x78, 0x0A] } rfl hsecond
  have hbytes : Utf8.encode ['x', '\n'] = [0x78, 0x0A] := rfl
  have hevents := hsource.events
  rw [Source.events_ofData, ← hbytes, Event.map_byte_injective.eq_iff] at hevents
  obtain rfl := Utf8.encode_injective hevents
  refine ⟨haccepted, hresult, hkept [other] _ rfl hother, declarations, hnames,
    hdeclaration.trans ?_, ?_⟩
  · decide +kernel
  · rw [show outcome.world = _ from hworld]
    rfl

/-- An input that is the output as well is lost: it is neither as it was before the run, nor is what
it had embedded. -/
theorem run_overwrites_input :
    let name := Utf8.encode ['a']
    let old := Utf8.encode "old\n".toList
    let options : Options := { output := some ⟨name⟩, files := [⟨name⟩] }
    let files : FileTree := { nodes := [([name], .regular old)], workingDirectory := [] }
    let outcome := run options { files }
    Options.ofArguments [Utf8.encode "-o".toList, name, name] = .ok options ∧
      files.openPath ⟨name⟩ = .ok [name] ∧ files.contents? [name] = some old ∧
      outcome.result = .ok () ∧
      outcome.world.files.contents? [name] ≠ some old ∧
      outcome.world.files.contents? [name] ≠ some (Utf8.encode
        (TextFile.block options.settings { name := ['a'], text := "old\n".toList })) := by
  decide +kernel

end TextEmbed.Command
