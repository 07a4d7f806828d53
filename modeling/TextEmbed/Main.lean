import TextEmbed.Command.Program

/-!
# The program on a real system

Opens, creates, reads and writes files, and leaves every decision to the pure parts.
-/

namespace TextEmbed.Main

open TextEmbed.Command

/-- The system error with a given number. -/
def systemError? (code : UInt32) : Option SystemError :=
  [SystemError.noSuchEntry, .notADirectory, .isADirectory, .noSpace, .nameTooLong].find?
    (·.code == code.toNat)

/-- The number of an error of the system, and what the system says about it. -/
def describe? : IO.Error → Option (UInt32 × String)
  | .alreadyExists _ code details | .noFileOrDirectory _ code details
  | .invalidArgument _ code details | .permissionDenied _ code details
  | .resourceExhausted _ code details | .inappropriateType _ code details
  | .noSuchThing _ code details | .interrupted _ code details
  | .otherError code details | .resourceBusy code details | .resourceVanished code details
  | .unsupportedOperation code details | .hardwareFault code details
  | .unsatisfiedConstraints code details | .illegalOperation code details
  | .protocolError code details | .timeExpired code details => some (code, details)
  | .unexpectedEof | .userError _ => none

/-- An error of the system as a fault. -/
def faultOf (e : IO.Error) : Fault :=
  match describe? e with
  | none => .reported .other (toString e).toList
  | some (code, details) =>
    match systemError? code with
    | some e => .system e
    | none => .reported .other s!"{details} (os error {code})".toList

/-- An operation of the system, its errors as faults. -/
def attempt {α : Type} (operation : IO α) : IO (Except Fault α) := do
  match ← operation.toBaseIO with
  | .ok value => return .ok value
  | .error e => return .error (faultOf e)

/-- A path as the system takes it. -/
def systemPath (path : Path) : String :=
  String.ofList (Utf8.lossy path.bytes)

/-- Something opened to read from. -/
inductive Reader where
  | standardInput
  | file (path : Path) (handle : IO.FS.Handle)

/-- Opens an input. -/
def openInput (path : Path) : IO (Except RunError Reader) := do
  if path.isStandard then return .ok .standardInput
  match ← attempt (IO.FS.Handle.mk (systemPath path) .read) with
  | .ok handle => return .ok (.file path handle)
  | .error f => return .error (.openInput path f)

/-- Opens inputs in order, up to the first error. -/
def openInputs : List Path → IO (Except RunError (List Reader))
  | [] => return .ok []
  | path :: rest => do
    match ← openInput path with
    | .error e => return .error e
    | .ok reader => return (← openInputs rest).map (reader :: ·)

/-- Reads a stream to its end. -/
partial def readAll (stream : IO.FS.Stream) (read : ByteArray) : IO ByteArray := do
  let bytes ← stream.read 8192
  if bytes.isEmpty then return read else readAll stream (read ++ bytes)

/-- Where a path leads to, without detours. -/
def realPath? (path : Path) : IO (Option String) := do
  return (← attempt (IO.FS.realPath (systemPath path))).toOption.map toString

/-- Where devices are, which keep nothing that could be read again. -/
def deviceDirectory : String := "/dev/"

/-- Whether the output can be read again under the path of an input. -/
def isEchoedAt (input : Path) (output : Option Path) : IO Bool := do
  let some output := Output.filePath? output | return false
  let some location ← realPath? output | return false
  return (← realPath? input) == some location && !location.startsWith deviceDirectory

/-- The input with a name and what could be read of it. -/
def inputOf (name : List Char) (contents : Except Fault ByteArray) : Input :=
  match contents with
  | .ok bytes => { name, source := .ofData bytes.toList }
  | .error f => { name, source := [.fault f] }

/-- What an opened input gives. -/
def feedOf (output : Option Path) : Reader → IO Feed
  | .standardInput => do
    let contents ← attempt (do readAll (← IO.getStdin) .empty)
    return .given (inputOf Opened.standardInputName contents)
  | .file path handle => do
    if ← isEchoedAt path output then return .echo path.baseName
    else return .given (inputOf path.baseName (← attempt handle.readBinToEnd))

/-- Creates the output. -/
def openOutput (path : Option Path) : IO (Except RunError IO.FS.Stream) := do
  match Output.filePath? path with
  | none => return .ok (← IO.getStdout)
  | some path =>
    match ← attempt (IO.FS.Handle.mk (systemPath path) .write) with
    | .ok handle => return .ok (.ofHandle handle)
    | .error f => return .error (.createOutput path f)

/-- Writes bytes block by block. A failure comes with the number of bytes written before it. -/
partial def writeBlocks (stream : IO.FS.Stream) (written : Nat) (bytes : List UInt8) :
    IO (Option (Nat × Fault)) := do
  if bytes.isEmpty then return none
  let block := bytes.take BlockWriter.capacity
  match ← attempt (do stream.write block.toByteArray; stream.flush) with
  | .ok () => writeBlocks stream (written + block.length) (bytes.drop BlockWriter.capacity)
  | .error f => return some (written, f)

/-- Embeds inputs into a stream. If the stream fails, the run ends as on a device that takes just
the bytes written so far. -/
def embedInto (settings : Settings) (feeds : List Feed) (stream : IO.FS.Stream) :
    IO (Except Failure Unit × List LogEvent) := do
  let (result, ending) := embedInBlocks settings feeds {}
  match ← writeBlocks stream 0 ending.sink.device.written.toList with
  | none => return (result, ending.log)
  | some (limit, f) =>
    let device : ByteSink := { limit := some limit, refusal := some f }
    let (result, ending) := embedInBlocks settings feeds device
    return (result, ending.log)

/-- Runs a command. -/
def run (options : Options) : IO (Except Failure Unit × List LogEvent) := do
  match ← openInputs options.files with
  | .error e => return (.error (.run e), [])
  | .ok readers =>
    let begun := (Output.filePath? options.output).toList.map LogEvent.creating
    match ← openOutput options.output with
    | .error e => return (.error (.run e), begun)
    | .ok stream =>
      let feeds ← readers.mapM (feedOf options.output)
      let (result, log) ← embedInto options.settings feeds stream
      return (result, begun ++ log)

end TextEmbed.Main

open TextEmbed TextEmbed.Command in
/-- Runs the program with the arguments of its command line. -/
def main (arguments : List String) : IO UInt32 := do
  match Options.ofArguments (arguments.map (Utf8.encode ·.toList)) with
  | .error refusal =>
    let text := String.ofList (refusal.message .stream)
    match refusal with
    | .usage _ => (← IO.getStderr).putStrLn text
    | .help | .version => (← IO.getStdout).putStr text
    return refusal.exitCode.toUInt32
  | .ok options =>
    let (result, log) ← TextEmbed.Main.run options
    (← IO.getStderr).putStr (String.ofList (diagnostics options.logLevel log result))
    return (runExitCode result).toUInt32
