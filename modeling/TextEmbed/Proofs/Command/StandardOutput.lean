import TextEmbed.Command.Program
import TextEmbed.Proofs.Command.Overwriting
import TextEmbed.Proofs.Command.Reading

/-!
# Standard output and output files

Generated text goes to standard output, or to a file, and for the rest it makes no difference which.
A run that writes to a file reads what it would read otherwise, as long as the file is none of the
inputs: the file is emptied before anything is read. Both outputs take everything, so a run fails in
reading only, and what it had written until then is in either of them. A run to a file reports that
it creates it, and nothing else tells the two apart.

## Main results

* `Command.run_standardOutput` and `Command.run_file`: both runs embed the same inputs;
* `Command.diagnostics_creating`: what creating the output adds to standard error;
* `Command.standardOutput_like_file`: the two runs side by side.
-/

namespace TextEmbed.Command

/-! ## Events -/

theorem padded_eq_self {width : Nat} {text : List Char} (h : width ≤ text.length) :
    padded width text = text := by
  rw [padded, Nat.sub_eq_zero_of_le h, List.replicate_zero, List.append_nil]

theorem length_target_creating (path : Path) : (LogEvent.creating path).target.length = 4 := by
  have hlength : "sres".length = 4 := by decide
  exact hlength

/-- The target of creating the output is the shortest there is. -/
theorem four_le_length_target (event : LogEvent) : 4 ≤ event.target.length := by
  have hlong : 4 ≤ "sres::embedder".length := by decide
  cases event with
  | creating path => exact (length_target_creating path).ge
  | embedding name identifier => exact hlong
  | embedded identifier fragments => exact hlong
  | finished declarations => exact hlong

/-- A width that no target falls below makes no difference. -/
theorem eventLines_eq_of_le {width : Nat} {log : List LogEvent}
    (h : ∀ event ∈ log, width ≤ event.target.length) : eventLines width log = eventLines 0 log := by
  cases log with
  | nil => rfl
  | cons event rest =>
    have hwidth : max width event.target.length = max 0 event.target.length := by
      rw [Nat.max_eq_right (h event List.mem_cons_self), Nat.zero_max]
    rw [eventLines, eventLines, hwidth]

theorem eventLine_creating (path : Path) :
    eventLine 4 (.creating path) = eventLine 0 (.creating path) := by
  rw [eventLine, eventLine, padded_eq_self (length_target_creating path).ge,
    padded_eq_self (Nat.zero_le _)]

/-- That the output is about to be created is shown from the second `-v` on. -/
theorem shownEvents_creating (options : Options) (path : Path) (log : List LogEvent) :
    shownEvents options.logLevel (.creating path :: log) =
      if 2 ≤ options.verbosity then .creating path :: shownEvents options.logLevel log
      else shownEvents options.logLevel log := by
  have hlevel : (LogEvent.creating path).level.detail ≤ options.logLevel.detail ↔
      2 ≤ options.verbosity := by
    unfold Options.logLevel
    rcases options.verbosity with _ | _ | _ | verbosity <;> simp [LogEvent.level, LogLevel.detail]
  rw [shownEvents, List.filter_cons]
  simp only [decide_eq_true_eq, hlevel]
  rfl

/-- Creating the output adds its own line to standard error, and changes nothing behind that. -/
theorem diagnostics_creating (options : Options) (path : Path) (log : List LogEvent)
    (result : Except Failure Unit) :
    diagnostics options.logLevel (.creating path :: log) result =
      (if 2 ≤ options.verbosity then eventLine 0 (.creating path) else []) ++
        diagnostics options.logLevel log result := by
  have hwidth : eventLines 4 (shownEvents options.logLevel log) =
      eventLines 0 (shownEvents options.logLevel log) :=
    eventLines_eq_of_le fun event _ => four_le_length_target event
  unfold diagnostics
  rw [shownEvents_creating, ← List.append_assoc]
  congr 1
  split
  next =>
    have hmax : max 0 (LogEvent.creating path).target.length = 4 := by
      rw [length_target_creating, Nat.zero_max]
    rw [eventLines, hmax, hwidth, eventLine_creating]
  next => rfl

/-! ## Runs -/

section

variable {options : Options} {world : World} {opened : List Opened}

/-- A run to standard output embeds its inputs. -/
theorem run_standardOutput
    (hopened : options.files.mapM (Opened.ofPath world.files) = .ok opened)
    (hpath : Output.filePath? options.output = none) :
    let feeds := (Opened.inputs world.files world.stdin opened).map .given
    let embedded := embedInBlocks options.settings feeds {}
    run options world =
      { result := embedded.1, log := embedded.2.log
        world :=
          { world with
            stdin := unreadStdin world.stdin opened embedded.2.inputs
            stdout := world.stdout ++ embedded.2.sink.device.written.toList } } := by
  intro feeds embedded
  have hcreated : Output.create world.files options.output =
      .ok (.standardOutput, world.files) := by
    simp only [Output.create, hpath]
  have hfeeds : Opened.feeds world.files .standardOutput world.stdin opened = feeds :=
    Opened.feeds_eq_map_given_of_not_echoed world.files world.stdin fun _ _ _ => rfl
  have hstarts : Starts options world opened .standardOutput world.files := ⟨hopened, hcreated⟩
  rw [hstarts.run_eq, hpath]
  simp only [embedOpened, hfeeds]
  rfl

/-- A run to a file that is none of its inputs embeds them. -/
theorem run_file (hopened : options.files.mapM (Opened.ofPath world.files) = .ok opened)
    {path : Path} {location : Location} {created : FileTree}
    (hpath : Output.filePath? options.output = some path)
    (hcreated : world.files.create path = .ok (location, created))
    (hfile : ∀ node, world.files.node? location = some node →
      ∃ contents, node = .regular contents)
    (hother : ∀ name, Opened.file name location ∉ opened) :
    let feeds := (Opened.inputs world.files world.stdin opened).map .given
    let embedded := embedInBlocks options.settings feeds {}
    run options world =
      { result := embedded.1, log := .creating path :: embedded.2.log
        world :=
          { world with
            stdin := unreadStdin world.stdin opened embedded.2.inputs
            files := created.fill location embedded.2.sink.device.written.toList } } := by
  intro feeds embedded
  obtain ⟨hroot, rfl⟩ := FileTree.of_create_eq_ok hcreated
  have hempty : (world.files.truncate location).node? location = some (.regular []) := by
    rw [FileTree.node?_truncate world.files hroot hfile, if_pos rfl]
  have hdevice : Output.device (world.files.truncate location) (.file location) = {} := by
    simp only [Output.device, hempty]
  rw [run_eq_embedOpened hopened hpath hcreated]
  simp only [embedOpened, feeds_truncate hroot hfile hother, hdevice]
  rfl

end

/-! ## Programs -/

theorem filePath?_of_isStandard {path : Path} (h : path.isStandard = true) :
    Output.filePath? (some path) = none := by
  simp [Output.filePath?, h]

theorem filePath?_of_not_isStandard {path : Path} (h : path.isStandard = false) :
    Output.filePath? (some path) = some path := by
  simp [Output.filePath?, h]

/-- Only the file that the output goes to makes a difference, and not how it was named. -/
theorem run_congr_output {options : Options} {first second : Option Path}
    (h : Output.filePath? first = Output.filePath? second) (world : World) :
    run { options with output := first } world = run { options with output := second } world := by
  have hcreate : Output.create world.files first = Output.create world.files second := by
    rw [Output.create, Output.create, h]
  simp only [run, h, hcreate]

/-- Standard output and an output file are interchangeable. Take a command line that names no output
and inputs that all open, and a path that a regular file can be created at, which is none of the
inputs. The path can be named as the output, in any spelling, and so can standard output, which
changes nothing. Naming the path doesn't change how the program exits, nor its diagnostics, except
that from the second `-v` on they start with the line that the output is created. The file then
holds exactly what standard output would have got, also if the run fails; standard output gets
nothing, and no other file changes. Without the path no file changes at all. -/
theorem standardOutput_like_file {arguments : List (List UInt8)} {options : Options}
    (haccepted : Options.ofArguments arguments = .ok options) (hnone : options.output = none)
    {world : World} {opened : List Opened}
    (hopened : options.files.mapM (Opened.ofPath world.files) = .ok opened)
    {path : Path} {location : Location} {created : FileTree} (hpath : path.isStandard = false)
    (hcreated : world.files.create path = .ok (location, created))
    (hfile : ∀ node, world.files.node? location = some node →
      ∃ contents, node = .regular contents)
    (hother : ∀ name, Opened.file name location ∉ opened) :
    (∀ value words, value ≠ [] → ValueOption.Spelled .output value words →
      Options.ofArguments (words ++ arguments) = .ok { options with output := some ⟨value⟩ }) ∧
    (∀ asked standard, standard.isStandard = true →
      Options.ofArguments asked = .ok { options with output := some standard } →
      execute asked world = execute arguments world) ∧
    ∀ asked, Options.ofArguments asked = .ok { options with output := some path } →
      let plain := execute arguments world
      let filed := execute asked world
      filed.exitCode = plain.exitCode ∧
        (∃ bytes, plain.world.stdout = world.stdout ++ bytes ∧
          filed.world.files.contents? location = some bytes) ∧
        filed.world.stdout = world.stdout ∧
        plain.world.files = world.files ∧
        (∀ other, other ≠ location →
          filed.world.files.node? other = world.files.node? other) ∧
        filed.world.stdin = plain.world.stdin ∧
        filed.stderr =
          (if 2 ≤ options.verbosity then eventLine 0 (.creating path) else []) ++ plain.stderr := by
  have hplain : Output.filePath? options.output = none := by rw [hnone]; rfl
  refine ⟨?_, ?_, ?_⟩
  · intro value words hvalue hwords
    exact Options.ofArguments_spelled_output haccepted hnone hvalue hwords
  · intro asked standard hstandard hasked
    have hrun : run { options with output := some standard } world = run options world :=
      run_congr_output ((filePath?_of_isStandard hstandard).trans hplain.symm) world
    rw [execute_eq hasked, execute_eq haccepted, hrun]
    rfl
  · intro asked hasked plain filed
    let toFile : Options := { options with output := some path }
    have hopenedToFile : toFile.files.mapM (Opened.ofPath world.files) = .ok opened := hopened
    have hpathToFile : Output.filePath? toFile.output = some path :=
      filePath?_of_not_isStandard hpath
    have hfiled := run_file hopenedToFile hpathToFile hcreated hfile hother
    have hrun := run_standardOutput hopened hplain
    obtain ⟨hroot, rfl⟩ := FileTree.of_create_eq_ok hcreated
    have htruncated := FileTree.node?_truncate world.files hroot hfile
    have hempty : (world.files.truncate location).node? location = some (.regular []) := by
      rw [htruncated, if_pos rfl]
    have hfilled := FileTree.node?_fill hroot hempty
    simp only [filed, plain, execute_eq hasked, execute_eq haccepted]
    rw [show run { options with output := some path } world = _ from hfiled, hrun]
    refine ⟨rfl, ⟨_, rfl, ?_⟩, rfl, rfl, ?_, rfl, ?_⟩
    · rw [FileTree.contents?, hfilled, if_pos rfl]
    · intro other hlocation
      rw [hfilled, if_neg hlocation, htruncated, if_neg hlocation]
    · exact diagnostics_creating options path _ _

/-- For example a run that fails in its second input, a directory, and reports all it does. -/
theorem standardOutput_like_file_directory :
    let name := Utf8.encode ['a']
    let directory := Utf8.encode ['d']
    let output := Utf8.encode ['o']
    let arguments := [Utf8.encode "-vv".toList, name, directory]
    let files : FileTree :=
      { nodes := [([name], .regular [0x78, 0x0A]), ([directory], .directory),
          ([output], .regular (List.replicate 100 0x7A))]
        workingDirectory := [] }
    let world : World := { files }
    let plain := execute arguments world
    let filed := execute ([Utf8.encode "-o".toList, output] ++ arguments) world
    execute ([Utf8.encode "--output=-//.".toList] ++ arguments) world = plain ∧
      filed.exitCode = 1 ∧ plain.world.stdout ≠ [] ∧ plain.world.files = files ∧
      filed.world.files.contents? [output] = some plain.world.stdout ∧
      filed.world.stdout = [] ∧
      filed.stderr = " DEBUG sres > Writing to \"o\"\n".toList ++ plain.stderr := by
  intro name directory output arguments files world plain filed
  let options : Options := { verbosity := 2, files := [⟨name⟩, ⟨directory⟩] }
  have haccepted : Options.ofArguments arguments = .ok options := by decide +kernel
  have hopened : options.files.mapM (Opened.ofPath world.files) =
      .ok [.file ['a'] [name], .file ['d'] [directory]] := by decide +kernel
  have hpath : (⟨output⟩ : Path).isStandard = false := by decide
  have hcreated : files.create ⟨output⟩ = .ok ([output], files.truncate [output]) := rfl
  have hfile : ∀ node, files.node? [output] = some node → ∃ contents, node = .regular contents := by
    rintro _ ⟨⟩
    exact ⟨_, rfl⟩
  have hother : ∀ file, Opened.file file [output] ∉
      [.file ['a'] [name], .file ['d'] [directory]] := by
    intro file
    have hname : output ≠ name := by decide
    have hdirectory : output ≠ directory := by decide
    simp [hname, hdirectory]
  have hline : eventLine 0 (.creating ⟨output⟩) =
      " DEBUG sres > Writing to \"o\"\n".toList := by decide +kernel
  obtain ⟨hspelled, hstandard, hfiled⟩ :=
    standardOutput_like_file haccepted rfl hopened hpath hcreated hfile hother
  have hdashes := hspelled (Utf8.encode "-//.".toList) _ (by decide) .longEquals
  have hasked := hspelled output _ (by decide) (.short (by decide))
  obtain ⟨hexit, ⟨bytes, hstdout, hcontents⟩, hempty, hkept, -, -, hstderr⟩ := hfiled _ hasked
  have hbytes : plain.world.stdout = bytes := hstdout
  refine ⟨hstandard _ _ (by decide) hdashes, hexit.trans ?_, ?_, hkept, ?_, hempty, ?_⟩
  · decide +kernel
  · decide +kernel
  · rw [hbytes]
    exact hcontents
  · rw [← hline]
    exact hstderr

end TextEmbed.Command
