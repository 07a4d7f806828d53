import TextEmbed.Utf8

/-!
# Faults

A fault is an input or output operation that failed. Sources, sinks and the file tree report faults
as causes; `Fault.kind` classifies them and `Fault.message` words them.
-/

namespace TextEmbed

/-- The kinds of failure that an input or output operation can report. -/
inductive FaultKind where
  | notFound
  | permissionDenied
  | connectionRefused
  | connectionReset
  | hostUnreachable
  | networkUnreachable
  | connectionAborted
  | notConnected
  | addressInUse
  | addressNotAvailable
  | networkDown
  | brokenPipe
  | alreadyExists
  | wouldBlock
  | notADirectory
  | isADirectory
  | directoryNotEmpty
  | readOnlyFilesystem
  | filesystemLoop
  | staleNetworkFileHandle
  | invalidInput
  | invalidData
  | timedOut
  | writeZero
  | storageFull
  | notSeekable
  | quotaExceeded
  | fileTooLarge
  | resourceBusy
  | executableFileBusy
  | deadlock
  | crossesDevices
  | tooManyLinks
  | invalidFilename
  | argumentListTooLong
  | interrupted
  | unsupported
  | unexpectedEof
  | outOfMemory
  | inProgress
  | other
  deriving DecidableEq, Repr

/-- The failures of the operating system that work with files meets. -/
inductive SystemError where
  | noSuchEntry
  | notADirectory
  | isADirectory
  | noSpace
  | nameTooLong
  deriving DecidableEq, Repr

namespace SystemError

/-- The class of a system error. -/
def kind : SystemError → FaultKind
  | noSuchEntry => .notFound
  | notADirectory => .notADirectory
  | isADirectory => .isADirectory
  | noSpace => .storageFull
  | nameTooLong => .invalidFilename

/-- The number of a system error. -/
def code : SystemError → Nat
  | noSuchEntry => 2
  | notADirectory => 20
  | isADirectory => 21
  | noSpace => 28
  | nameTooLong => 36

/-- What a system error means, without its number. -/
def description : SystemError → String
  | noSuchEntry => "No such file or directory"
  | notADirectory => "Not a directory"
  | isADirectory => "Is a directory"
  | noSpace => "No space left on device"
  | nameTooLong => "File name too long"

/-- The wording of a system error. -/
def message (e : SystemError) : List Char :=
  e.description.toList ++ " (os error ".toList ++ Nat.toDigits 10 e.code ++ ")".toList

end SystemError

/-- An input or output operation that failed. -/
inductive Fault where
  /-- The environment reported a failure in its own words. -/
  | reported (kind : FaultKind) (message : List Char)
  /-- A line was no text. -/
  | illFormed (e : Utf8.IllFormed)
  /-- A sink took no byte of a non-empty write. -/
  | nothingTaken
  /-- A path holds a zero byte, so no file can have it. -/
  | zeroInPath
  /-- The operating system refused. -/
  | system (e : SystemError)
  deriving DecidableEq, Repr

namespace Fault

/-- The class of a fault. -/
def kind : Fault → FaultKind
  | reported kind _ => kind
  | illFormed _ => .invalidData
  | nothingTaken => .writeZero
  | zeroInPath => .invalidInput
  | system e => e.kind

/-- The wording of a fault. -/
def message : Fault → List Char
  | reported _ message => message
  | illFormed e => e.message
  | nothingTaken => "failed to write whole buffer".toList
  | zeroInPath => "file name contained an unexpected NUL byte".toList
  | system e => e.message

end Fault

end TextEmbed
