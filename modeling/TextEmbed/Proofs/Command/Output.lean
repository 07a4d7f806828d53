import Mathlib.Data.List.Basic
import TextEmbed.Proofs.Command.Startup
import TextEmbed.Proofs.Embedding.Blocks
import TextEmbed.Proofs.FileTree

/-!
# Output files

A command that writes to a file leaves in it what embedding writes into a sink that takes
everything. The output is created before the inputs are read, and goes out in blocks; neither can be
seen afterwards, unless an input is the output file.

## Main definitions

* `Command.Opened.inputs`: what opened inputs bring if none of them is the output.

## Main results

* `Command.Opened.feeds_eq_map_given` and `Command.Opened.getElem?_feeds`: such inputs have sources
  of their own;
* `Command.run_eq_embed`: a run to a file is embedding.
-/

namespace TextEmbed.Command

namespace Opened

/-- What opened inputs bring: the contents that their files have in `files`, and the bytes `stdin`
where standard input is opened first. -/
def inputs (files : FileTree) (stdin : List UInt8) : List Opened → List Input
  | [] => []
  | standardInput :: rest =>
    { name := standardInputName, source := .ofData stdin } :: inputs files [] rest
  | file name location :: rest =>
    { name, source := files.source location } :: inputs files stdin rest

/-- Inputs have sources of their own unless the output can be read from where they are. -/
theorem feeds_eq_map_given_of_not_echoed (files : FileTree) {output : Output} (stdin : List UInt8)
    {opened : List Opened}
    (h : ∀ name location, file name location ∈ opened → output.isEchoedAt files location = false) :
    feeds files output stdin opened = (inputs files stdin opened).map .given := by
  fun_induction inputs files stdin opened with
  | case1 => rfl
  | case2 stdin rest ih =>
    have hrest := ih fun name location hmem => h name location (List.mem_cons_of_mem _ hmem)
    rw [feeds, hrest, List.map_cons]
  | case3 stdin name location rest ih =>
    have hrest := ih fun name location hmem => h name location (List.mem_cons_of_mem _ hmem)
    have hfeed : feedOfFile files output name location =
        .given { name, source := files.source location } := by
      simp only [feedOfFile, h name location List.mem_cons_self, Bool.false_eq_true, if_false]
    rw [feeds, hrest, hfeed, List.map_cons]

/-- Inputs that are not the output have sources of their own. -/
theorem feeds_eq_map_given (files : FileTree) (stdin : List UInt8) {opened : List Opened}
    {location : Location} (h : ∀ name, file name location ∉ opened) :
    feeds files (.file location) stdin opened = (inputs files stdin opened).map .given := by
  refine feeds_eq_map_given_of_not_echoed files stdin ?_
  intro name there hmem
  have hthere : location ≠ there := by
    rintro rfl
    exact h name hmem
  simp [Output.isEchoedAt, hthere]

/-- What opened inputs bring is a matter of the nodes that were opened. -/
theorem inputs_congr {files others : FileTree} {opened : List Opened}
    (h : ∀ name location, file name location ∈ opened →
      files.node? location = others.node? location) (stdin : List UInt8) :
    inputs files stdin opened = inputs others stdin opened := by
  fun_induction inputs files stdin opened with
  | case1 => rfl
  | case2 stdin rest ih =>
    have hrest := ih fun name location hmem => h name location (List.mem_cons_of_mem _ hmem)
    rw [inputs, hrest]
  | case3 stdin name there rest ih =>
    have hrest := ih fun name location hmem => h name location (List.mem_cons_of_mem _ hmem)
    rw [inputs, hrest, FileTree.source_congr (h name there List.mem_cons_self)]

/-- Every opened input brings something. -/
theorem length_inputs (files : FileTree) (stdin : List UInt8) (opened : List Opened) :
    (inputs files stdin opened).length = opened.length := by
  fun_induction inputs files stdin opened with
  | case1 => rfl
  | case2 stdin rest ih => rw [List.length_cons, List.length_cons, ih]
  | case3 stdin name location rest ih => rw [List.length_cons, List.length_cons, ih]

theorem name_feedOfFile (files : FileTree) (output : Output) (name : List Char)
    (location : Location) : (feedOfFile files output name location).name = name := by
  unfold feedOfFile
  split <;> rfl

/-- Feeds have the names of the inputs. -/
theorem map_name_feeds (files : FileTree) (output : Output) (stdin : List UInt8)
    (opened : List Opened) : (feeds files output stdin opened).map Feed.name = opened.map name := by
  fun_induction feeds files output stdin opened with
  | case1 => rfl
  | case2 stdin rest ih => rw [List.map_cons, List.map_cons, ih]; rfl
  | case3 stdin name location rest ih =>
    rw [List.map_cons, List.map_cons, ih, name_feedOfFile]
    rfl

theorem getElem?_inputs (files : FileTree) (stdin : List UInt8) {opened : List Opened} {i : Nat}
    {name : List Char} {location : Location} (h : opened[i]? = some (.file name location)) :
    (inputs files stdin opened)[i]? = some { name, source := files.source location } := by
  fun_induction inputs files stdin opened generalizing i with
  | case1 => simp at h
  | case2 stdin rest ih =>
    cases i with
    | zero => simp at h
    | succ i => exact ih h
  | case3 stdin there found rest ih =>
    cases i with
    | zero =>
      obtain ⟨rfl, rfl⟩ : there = name ∧ found = location := by simpa using h
      rfl
    | succ i => exact ih h

/-- Where an input is as it was in `before`, and isn't the output, it has a source of its own. -/
theorem getElem?_feeds {before files : FileTree} {output : Output} {stdin : List UInt8}
    {opened : List Opened} {i : Nat} {input : Input}
    (hinput : (inputs before stdin opened)[i]? = some input)
    (hother : ∀ name location, opened[i]? = some (.file name location) →
      files.node? location = before.node? location ∧ output.isEchoedAt files location = false) :
    (feeds files output stdin opened)[i]? = some (.given input) := by
  fun_induction inputs before stdin opened generalizing i with
  | case1 => simp at hinput
  | case2 stdin rest ih =>
    cases i with
    | zero => simpa [feeds] using hinput
    | succ i => exact ih hinput hother
  | case3 stdin name location rest ih =>
    cases i with
    | zero =>
      obtain ⟨hnode, hechoed⟩ := hother name location rfl
      obtain rfl : { name, source := before.source location } = input := by simpa using hinput
      rw [feeds, List.getElem?_cons_zero, feedOfFile, hechoed, FileTree.source_congr hnode]
      rfl
    | succ i => exact ih hinput hother

end Opened

/-- A run whose inputs can be opened and whose output can be created embeds the inputs. -/
theorem run_eq_embedOpened {options : Options} {world : World} {opened : List Opened} {path : Path}
    {location : Location} {created : FileTree}
    (hopened : options.files.mapM (Opened.ofPath world.files) = .ok opened)
    (hpath : Output.filePath? options.output = some path)
    (hcreated : world.files.create path = .ok (location, created)) :
    let outcome := embedOpened options.settings opened (.file location)
      { world with files := created }
    run options world = { outcome with log := .creating path :: outcome.log } := by
  simp only [(starts_of_create hopened hpath hcreated).run_eq, hpath]
  rfl

/-- Creating the output makes no difference to the other inputs. -/
theorem feeds_truncate {files : FileTree} {location : Location} (hroot : location ≠ [])
    (hfile : ∀ node, files.node? location = some node → ∃ contents, node = .regular contents)
    {opened : List Opened} (hother : ∀ name, Opened.file name location ∉ opened)
    (stdin : List UInt8) :
    Opened.feeds (files.truncate location) (.file location) stdin opened =
      (Opened.inputs files stdin opened).map .given := by
  rw [Opened.feeds_eq_map_given _ _ hother]
  refine congrArg _ (Opened.inputs_congr ?_ _)
  intro name there hmem
  have hthere : there ≠ location := by
    rintro rfl
    exact hother name hmem
  rw [FileTree.node?_truncate files hroot hfile, if_neg hthere]

/-- What a run to a file means. If all inputs can be opened, the output can be created as a regular
file and is none of the inputs, then the file holds what embedding the inputs writes into a sink
that takes everything, whatever it held before. The run has the result of embedding, which can fail
in reading only, and no other file changes. -/
theorem run_eq_embed (options : Options) (world : World) {opened : List Opened} {path : Path}
    {location : Location} {created : FileTree}
    (hopened : options.files.mapM (Opened.ofPath world.files) = .ok opened)
    (hpath : Output.filePath? options.output = some path)
    (hcreated : world.files.create path = .ok (location, created))
    (hfile : ∀ node, world.files.node? location = some node →
      ∃ contents, node = .regular contents)
    (hother : ∀ name, Opened.file name location ∉ opened) :
    let inputs := Opened.inputs world.files world.stdin opened
    let embedded := embed options.settings inputs ({} : ByteSink)
    let outcome := run options world
    outcome.result = embedded.result.mapError .run ∧
      (∀ e, embedded.result = .error e → ∃ input ∈ inputs, ∃ f, e = .read input.name f) ∧
      outcome.world.files.contents? location = some embedded.sink.written.toList ∧
      (∀ other, other ≠ location →
        outcome.world.files.node? other = world.files.node? other) ∧
      outcome.world.stdout = world.stdout := by
  intro inputs embedded outcome
  obtain ⟨hroot, rfl⟩ := FileTree.of_create_eq_ok hcreated
  have htruncated := FileTree.node?_truncate world.files hroot hfile
  have hempty : (world.files.truncate location).node? location = some (.regular []) := by
    rw [htruncated, if_pos rfl]
  have hdevice : Output.device (world.files.truncate location) (.file location) = {} := by
    simp only [Output.device, hempty]
  have hlimit : ({} : ByteSink).limit = none := rfl
  obtain ⟨hembedded, hblocks⟩ := embedInBlocks_map_given options.settings inputs hlimit (by simp)
  have hwritten : (embedInBlocks options.settings (inputs.map .given)
      {}).2.sink.device.written.toList = embedded.sink.written.toList := hblocks
  -- the blocks go into the file that was emptied
  have houtcome : outcome.result = (embedInBlocks options.settings (inputs.map .given) {}).1 ∧
      outcome.world.files = (world.files.truncate location).fill location
        embedded.sink.written.toList ∧ outcome.world.stdout = world.stdout := by
    simp only [outcome, run_eq_embedOpened hopened hpath hcreated, embedOpened,
      feeds_truncate hroot hfile hother, hdevice, Output.deliver, ← hwritten]
    exact ⟨rfl, rfl, trivial⟩
  obtain ⟨hresult, hfiles, hstdout⟩ := houtcome
  have hfilled := FileTree.node?_fill hroot hempty embedded.sink.written.toList
  refine ⟨hresult.trans hembedded, ?_, ?_, ?_, hstdout⟩
  · intro e he
    rw [result_embed_eq_transcript] at he
    exact result_transcriptFrom_eq_error he
  · rw [hfiles, FileTree.contents?, hfilled, if_pos rfl]
  · intro other hlocation
    rw [hfiles, hfilled, if_neg hlocation, htruncated, if_neg hlocation]

/-- For example a run that fails because its second input is a directory. -/
theorem run_eq_embed_directory :
    let name := Utf8.encode ['a']
    let directory := Utf8.encode ['d']
    let output := Utf8.encode ['o']
    let files : FileTree :=
      { nodes := [([name], .regular [0x78, 0x0A]), ([directory], .directory),
          ([output], .regular (List.replicate 100 0x7A))]
        workingDirectory := [] }
    let outcome := run { output := some ⟨output⟩, files := [⟨name⟩, ⟨directory⟩] } { files }
    outcome.result = .error (.run (.read ['d'] (.system .isADirectory))) ∧
      outcome.world.files.contents? [output] = some (Utf8.encode
        "static const GLchar* _a =\n    \"x\\n\"\n    ;\n\nstatic const GLchar* _d =\n".toList) ∧
      outcome.world.files.node? [name] = some (.regular [0x78, 0x0A]) := by
  intro name directory output files outcome
  have hopened : [(⟨name⟩ : Path), ⟨directory⟩].mapM (Opened.ofPath files) =
      .ok [.file ['a'] [name], .file ['d'] [directory]] := by decide +kernel
  have hpath : Output.filePath? (some ⟨output⟩) = some ⟨output⟩ := by decide
  have hcreated : files.create ⟨output⟩ = .ok ([output], files.truncate [output]) := rfl
  have hfile : ∀ node, files.node? [output] = some node → ∃ contents, node = .regular contents := by
    rintro _ ⟨⟩
    exact ⟨_, rfl⟩
  have hother : ∀ file, Opened.file file [output] ∉
      [.file ['a'] [name], .file ['d'] [directory]] := by
    intro file
    have hname : output ≠ name := by decide
    have hdirectory : output ≠ directory := by decide
    simp [hname, hdirectory]
  obtain ⟨hresult, -, hcontents, hnodes, -⟩ := run_eq_embed
    { output := some ⟨output⟩, files := [⟨name⟩, ⟨directory⟩] } { files }
    hopened hpath hcreated hfile hother
  refine ⟨hresult.trans ?_, hcontents.trans ?_, hnodes [name] (by decide)⟩
  · decide +kernel
  · decide +kernel

end TextEmbed.Command
