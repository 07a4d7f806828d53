import TextEmbed.Command.Options
import TextEmbed.Echo
import TextEmbed.FileTree

/-!
# Running a command

A run opens all inputs in the order in which they are named, then creates the output, and only then
reads. So an input that can't be opened leaves no output behind, and an input that is the output as
well has lost its contents and echoes the output. Output is written in blocks, the last of which
goes out at the end, also when the run fails.

The first input that stands for standard input gets all of it, later ones are empty.

Runs are meant to end, so the full device is not meant to be among the inputs.
-/

namespace TextEmbed.Command

/-- What a run can see and change. -/
structure World where
  files : FileTree
  /-- What nobody has read from standard input yet. -/
  stdin : List UInt8 := []
  /-- What was written to standard output. -/
  stdout : List UInt8 := []

/-- What is behind an opened input. -/
inductive Opened where
  | standardInput
  | file (name : List Char) (location : Location)
  deriving DecidableEq, Repr

namespace Opened

/-- The name of standard input as a file. -/
def standardInputName : List Char :=
  "<stdin>".toList

/-- The name that the declaration of an input is derived from. -/
def name : Opened → List Char
  | standardInput => standardInputName
  | file name _ => name

/-- Opens the file that a path names. -/
def ofPath (files : FileTree) (path : Path) : Except RunError Opened :=
  if path.isStandard then .ok .standardInput
  else
    match files.openPath path with
    | .ok location => .ok (.file path.baseName location)
    | .error f => .error (.openInput path f)

end Opened

/-- Where the output goes. -/
inductive Output where
  | standardOutput
  | file (location : Location)
  deriving DecidableEq, Repr

namespace Output

/-- The path of the file that the output goes to, if it doesn't go to standard output. -/
def filePath? (output : Option Path) : Option Path :=
  output.filter (!·.isStandard)

/-- Creates the output. -/
def create (files : FileTree) (output : Option Path) : Except RunError (Output × FileTree) :=
  match filePath? output with
  | none => .ok (.standardOutput, files)
  | some path =>
    match files.create path with
    | .ok (location, files) => .ok (.file location, files)
    | .error f => .error (.createOutput path f)

/-- What takes the blocks of the output. -/
def device (files : FileTree) : Output → ByteSink
  | standardOutput => {}
  | file location =>
    match files.node? location with
    | some .fullDevice => { limit := some 0, refusal := some (.system .noSpace) }
    | _ => {}

/-- Whether the output can be read again from a location. -/
def isEchoedAt (files : FileTree) (location : Location) : Output → Bool
  | standardOutput => false
  | file created => created = location && (files.contents? location).isSome

/-- The world after the output `bytes`. -/
def deliver (bytes : List UInt8) (world : World) : Output → World
  | standardOutput => { world with stdout := world.stdout ++ bytes }
  | file location => { world with files := world.files.fill location bytes }

end Output

namespace Opened

/-- What a file at a location gives to a run. -/
def feedOfFile (files : FileTree) (output : Output) (name : List Char) (location : Location) :
    Feed :=
  if output.isEchoedAt files location then .echo name
  else .given { name, source := files.source location }

/-- What opened inputs give to a run, the first standard input giving the bytes `stdin`. -/
def feeds (files : FileTree) (output : Output) (stdin : List UInt8) : List Opened → List Feed
  | [] => []
  | standardInput :: rest =>
    .given { name := standardInputName, source := .ofData stdin } :: feeds files output [] rest
  | file name location :: rest =>
    feedOfFile files output name location :: feeds files output stdin rest

end Opened

/-- How a run ended. -/
structure Outcome where
  result : Except Failure Unit
  world : World
  /-- The events of the run, at all levels, in order. -/
  log : List LogEvent

/-- What is left of standard input when the first of the `opened` inputs are left as `inputs`. -/
def unreadStdin (stdin : List UInt8) (opened : List Opened) (inputs : List Input) : List UInt8 :=
  match (opened.zip inputs).find? (·.1 == .standardInput) with
  | some (_, input) => input.source.unread
  | none => stdin

/-- Embeds inputs into a device, block by block. What is collected at the end goes out, also when
embedding has failed. -/
def embedInBlocks (settings : Settings) (feeds : List Feed) (device : ByteSink) :
    Except Failure Unit × Ending BlockWriter :=
  let writer : BlockWriter := { device }
  let ending := embedFeeds settings feeds writer
  let (flushed, writer) := ending.sink.flush
  let result := match ending.result with
    | .error e => .error (.run e)
    | .ok () => withMessage flushed "couldn't flush the output".toList
  (result, { ending with sink := writer })

/-- Embeds opened inputs into an output. -/
def embedOpened (settings : Settings) (opened : List Opened) (output : Output) (world : World) :
    Outcome :=
  let feeds := Opened.feeds world.files output world.stdin opened
  let (result, ending) := embedInBlocks settings feeds (output.device world.files)
  let stdin := unreadStdin world.stdin opened ending.inputs
  { result, log := ending.log,
    world := output.deliver ending.sink.device.written.toList { world with stdin } }

/-- Runs a command. -/
def run (options : Options) (world : World) : Outcome :=
  match options.files.mapM (Opened.ofPath world.files) with
  | .error e => { result := .error (.run e), world, log := [] }
  | .ok opened =>
    let begun := (Output.filePath? options.output).toList.map LogEvent.creating
    match Output.create world.files options.output with
    | .error e => { result := .error (.run e), world, log := begun }
    | .ok (output, files) =>
      let outcome := embedOpened options.settings opened output { world with files }
      { outcome with log := begun ++ outcome.log }

/-- An input that is the output as well gives nothing as long as no block has gone out. -/
example :
    let name := Utf8.encode ['a']
    let files : FileTree :=
      { nodes := [([name], .regular (Utf8.encode "old\n".toList))], workingDirectory := [] }
    let outcome := run { output := some ⟨name⟩, files := [⟨name⟩] } { files }
    outcome.world.files.contents? [name] =
      some (Utf8.encode "static const GLchar* _a =\n    ;\n\n".toList) := by decide +kernel

end TextEmbed.Command
