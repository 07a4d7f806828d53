import TextEmbed.Fault
import TextEmbed.Path
import TextEmbed.Text.Quoted

/-!
# Failures

How a run ends when it doesn't succeed. A `RunError` says which operation of a run failed on which
file; a `Failure` is an error or a fault with messages laid around it, the outermost told first.

The errors and their wording are the program's. Failures are carried by a library (anyhow) that is
not part of the program: `Failure` and its chain, and the layout of reports, are written after it.
-/

namespace TextEmbed

/-- Every way a run can fail. The first error ends the run. -/
inductive RunError where
  /-- An input can't be opened. -/
  | openInput (path : Path) (cause : Fault)
  /-- The output can't be created. -/
  | createOutput (path : Path) (cause : Fault)
  /-- The source of the file `name` failed, or gave a line that is no text. -/
  | read (name : List Char) (cause : Fault)
  /-- The sink failed within the declaration of the file `name`. -/
  | write (name : List Char) (cause : Fault)
  deriving DecidableEq, Repr

namespace RunError

/-- The wording of an error, without its cause. -/
def message : RunError → List Char
  | openInput path _ => "couldn't open input file ".toList ++ Text.quoted path.bytes
  | createOutput path _ => "couldn't create output file ".toList ++ Text.quoted path.bytes
  | read name _ => "couldn't read from ".toList ++ name
  | write name _ => "couldn't write the declaration of ".toList ++ name

/-- The fault behind an error. -/
def cause : RunError → Fault
  | openInput _ cause | createOutput _ cause | read _ cause | write _ cause => cause

end RunError

/-- A failed operation with its circumstances. -/
inductive Failure where
  /-- An error of a run. -/
  | run (e : RunError)
  /-- A fault that nothing was said about. -/
  | fault (f : Fault)
  /-- A failure with a message on top. -/
  | context (message : List Char) (inner : Failure)
  deriving DecidableEq, Repr

namespace Failure

/-- The messages of a failure, the outermost first. -/
def chain : Failure → List (List Char)
  | run e => [e.message, e.cause.message]
  | fault f => [f.message]
  | context message inner => message :: inner.chain

/-- The outermost message. -/
def message (failure : Failure) : List Char :=
  failure.chain.headD []

/-- All messages in one line. -/
def full (failure : Failure) : List Char :=
  List.intercalate ": ".toList failure.chain

/-- A cause as its place in a report: every line indented, and numbered if there are several. -/
def reportCause (number : Option Nat) (cause : List Char) : List Char :=
  let (first, next) := match number with
    | none => ("    ".toList, "    ".toList)
    | some n =>
      let digits := Nat.toDigits 10 n
      (List.replicate (5 - digits.length) ' ' ++ digits ++ ": ".toList, "       ".toList)
  first ++ List.intercalate ('\n' :: next) (cause.splitOn '\n')

/-- A failure told over several lines: its message, and what it was caused by. -/
def report (failure : Failure) : List Char :=
  match failure.chain with
  | [] => []
  | [message] => message
  | [message, cause] => message ++ "\n\nCaused by:\n".toList ++ reportCause none cause
  | message :: causes =>
    message ++ "\n\nCaused by:".toList ++
      causes.zipIdx.flatMap fun (cause, n) => '\n' :: reportCause (some n) cause

end Failure

/-- Puts a message on top of a fault; a success stays as it is. -/
def withMessage {α : Type} (outcome : Except Fault α) (message : List Char) : Except Failure α :=
  match outcome with
  | .ok value => .ok value
  | .error f => .error (.context message (.fault f))

end TextEmbed
