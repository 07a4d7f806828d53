import TextEmbed.Path
import TextEmbed.Text.Quoted

/-!
# Log events

What a run reports about itself while it goes on. Each event has a level, a target (the part of the
program that reports it) and a wording.
-/

namespace TextEmbed

/-- How much detail an event is. -/
inductive LogLevel where
  | warn
  | info
  | debug
  | trace
  deriving DecidableEq, Repr

namespace LogLevel

/-- The rank of a level, the least detail first. -/
def detail : LogLevel → Nat
  | warn => 0
  | info => 1
  | debug => 2
  | trace => 3

/-- The name of a level. -/
def name : LogLevel → String
  | warn => "WARN"
  | info => "INFO"
  | debug => "DEBUG"
  | trace => "TRACE"

end LogLevel

/-- Something worth reporting. -/
inductive LogEvent where
  /-- The output is about to be created. -/
  | creating (path : Path)
  /-- The declaration of a file begins. -/
  | embedding (name identifier : List Char)
  /-- A declaration is complete. -/
  | embedded (identifier : List Char) (fragments : Nat)
  /-- A run has succeeded. -/
  | finished (declarations : Nat)
  deriving DecidableEq, Repr

namespace LogEvent

/-- The level of an event. -/
def level : LogEvent → LogLevel
  | creating _ => .debug
  | embedding _ _ => .debug
  | embedded _ _ => .trace
  | finished _ => .info

/-- The part of the program that reports an event. -/
def target : LogEvent → String
  | creating _ => "sres"
  | embedding _ _ | embedded _ _ | finished _ => "sres::embedder"

/-- The wording of an event. -/
def message : LogEvent → List Char
  | creating path => "Writing to ".toList ++ Text.quoted path.bytes
  | embedding name identifier => "Embedding ".toList ++ name ++ " as ".toList ++ identifier
  | embedded identifier fragments =>
    identifier ++ ": ".toList ++ Nat.toDigits 10 fragments ++ " fragment(s)".toList
  | finished declarations =>
    "Wrote ".toList ++ Nat.toDigits 10 declarations ++ " declaration(s)".toList

end LogEvent

end TextEmbed
