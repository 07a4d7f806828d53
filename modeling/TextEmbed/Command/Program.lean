import TextEmbed.Command.Arguments
import TextEmbed.Command.Help
import TextEmbed.Command.Run

/-!
# The program

What the program prints and how it exits: generated text and the texts that were asked for go to
standard output, log events and failures to standard error.

Which events are shown is up to the program. How they look is up to the logger that it sets up
(pretty_env_logger), and how a failure looks is up to the library that carries it (anyhow). These
libraries are not part of the program: `eventLine`, `eventLines` and `Failure.report` are written
after what they print.
-/

namespace TextEmbed.Command

/-- How the program ended. -/
structure Completion where
  exitCode : Nat
  stderr : List Char
  world : World

/-- A text, filled with spaces up to a width. -/
def padded (width : Nat) (text : List Char) : List Char :=
  text ++ List.replicate (width - text.length) ' '

/-- The greatest length of the name of a level. -/
def levelWidth : Nat := 5

/-- An event as a line, its target filled up to a width. -/
def eventLine (width : Nat) (event : LogEvent) : List Char :=
  ' ' :: padded levelWidth event.level.name.toList ++ ' ' :: padded width event.target.toList
    ++ " > ".toList ++ event.message ++ ['\n']

/-- Events as lines. Targets are filled up to the length of the longest one so far, which is at
least `width`. -/
def eventLines (width : Nat) : List LogEvent → List Char
  | [] => []
  | event :: rest =>
    let width := max width event.target.length
    eventLine width event ++ eventLines width rest

/-- The events that are shown at a level. -/
def shownEvents (level : LogLevel) (log : List LogEvent) : List LogEvent :=
  log.filter (·.level.detail ≤ level.detail)

/-- A failure as it is printed at the end. -/
def failureLines (failure : Failure) : List Char :=
  "Error: ".toList ++ failure.report ++ ['\n']

/-- What standard error gets of a run. -/
def diagnostics (level : LogLevel) (log : List LogEvent) (result : Except Failure Unit) :
    List Char :=
  eventLines 0 (shownEvents level log) ++
    match result with
    | .ok () => []
    | .error failure => failureLines failure

/-- The exit code of a run. -/
def runExitCode (result : Except Failure Unit) : Nat :=
  match result with
  | .ok () => 0
  | .error _ => 1

/-- Runs the program with arguments. They are encoded texts: with other arguments the program ends
before it reads any of them, and that is not described here. -/
def execute (arguments : List (List UInt8)) (world : World) : Completion :=
  match Options.ofArguments arguments with
  | .error (.usage e) =>
    { exitCode := (Refusal.usage e).exitCode, stderr := e.headline .stream ++ ['\n'], world }
  | .error refusal =>
    { exitCode := refusal.exitCode, stderr := [],
      world := { world with stdout := world.stdout ++ Utf8.encode (refusal.message .stream) } }
  | .ok options =>
    let outcome := run options world
    { exitCode := runExitCode outcome.result
      stderr := diagnostics options.logLevel outcome.log outcome.result
      world := outcome.world }

/-- The program with accepted arguments does what they ask for. -/
theorem execute_eq {arguments : List (List UInt8)} {options : Options}
    (h : Options.ofArguments arguments = .ok options) (world : World) :
    execute arguments world =
      { exitCode := runExitCode (run options world).result
        stderr := diagnostics options.logLevel (run options world).log (run options world).result
        world := (run options world).world } := by
  simp only [execute, h]

end TextEmbed.Command
