import TextEmbed.Declaration
import TextEmbed.Log
import TextEmbed.Path

/-!
# Options

What a command line asks for, the parameters that it can name, and the ways in which it can be
refused.

The program declares the parameters, and leaves it to a library (clap) to read the command line. The
flags that ask for help and for the version are the library's own, and so are the errors.
-/

namespace TextEmbed.Command

/-- A run as it was asked for. -/
structure Options where
  /-- How declarations are written. -/
  settings : Settings := {}
  /-- Where the output goes, to standard output if nothing is said. -/
  output : Option Path := none
  /-- How often more diagnostics were asked for. -/
  verbosity : Nat := 0
  /-- The files to embed, in order. -/
  files : List Path
  deriving DecidableEq, Repr

/-- The most detailed level of log events that is shown. -/
def Options.logLevel (options : Options) : LogLevel :=
  match options.verbosity with
  | 0 => .warn
  | 1 => .info
  | 2 => .debug
  | _ => .trace

/-- What the occurrences of a flag come to. -/
inductive Action where
  /-- Something is switched on, which can be done once. -/
  | switchOn
  /-- The occurrences are counted. -/
  | count
  /-- The help text is shown instead of a run. -/
  | help
  /-- The version is shown instead of a run. -/
  | version
  deriving DecidableEq, Repr

/-- What the values of a parameter are. -/
inductive ValueKind where
  /-- Texts, also empty ones. -/
  | text
  /-- Paths, which are never empty. -/
  | path
  deriving DecidableEq, Repr

/-- The options without a value. -/
inductive Flag where
  | stripComments
  | verbose
  | help
  | version
  deriving DecidableEq, Repr

namespace Flag

/-- All flags. -/
def all : List Flag :=
  [stripComments, verbose, help, version]

/-- The letter of a flag behind a single dash. -/
def letter : Flag → Char
  | stripComments => 'c'
  | verbose => 'v'
  | help => 'h'
  | version => 'V'

/-- The word of a flag behind two dashes. -/
def word : Flag → String
  | stripComments => "strip-comments"
  | verbose => "verbose"
  | help => "help"
  | version => "version"

/-- What the occurrences of a flag come to. -/
def action : Flag → Action
  | stripComments => .switchOn
  | verbose => .count
  | help => .help
  | version => .version

/-- The flag with a given letter. -/
def ofLetter? (letter : UInt8) : Option Flag :=
  all.find? fun flag => flag.letter.toUInt8 == letter

/-- The flag with a given word. -/
def ofWord? (word : List UInt8) : Option Flag :=
  all.find? fun flag => Utf8.encode flag.word.toList == word

end Flag

/-- The options with a value. -/
inductive ValueOption where
  | lead
  | pointerType
  | output
  deriving DecidableEq, Repr

namespace ValueOption

/-- All options with a value. -/
def all : List ValueOption :=
  [lead, pointerType, output]

/-- The letter of an option behind a single dash. -/
def letter : ValueOption → Char
  | lead => 'p'
  | pointerType => 't'
  | output => 'o'

/-- The word of an option behind two dashes. -/
def word : ValueOption → String
  | lead => "prefix"
  | pointerType => "type"
  | output => "output"

/-- What messages call the value of an option. -/
def valueName : ValueOption → String
  | lead => "PREFIX"
  | pointerType => "CHAR_TYPE"
  | output => "OUTPUT"

/-- What the values of an option are. -/
def kind : ValueOption → ValueKind
  | lead | pointerType => .text
  | output => .path

/-- The value of an option that isn't given. -/
def default? : ValueOption → Option (List Char)
  | lead => some ({} : Settings).lead
  | pointerType => some ({} : Settings).pointerType
  | output => none

/-- The option with a given letter. -/
def ofLetter? (letter : UInt8) : Option ValueOption :=
  all.find? fun option => option.letter.toUInt8 == letter

/-- The option with a given word. -/
def ofWord? (word : List UInt8) : Option ValueOption :=
  all.find? fun option => Utf8.encode option.word.toList == word

end ValueOption

/-- Everything that a command line can give. -/
inductive Parameter where
  | flag (flag : Flag)
  | value (option : ValueOption)
  | files
  deriving DecidableEq, Repr

namespace Parameter

/-- How a parameter is called in messages: with dots if it can be repeated, and with its value. -/
def display : Parameter → String
  | .flag .verbose => "--verbose..."
  | .flag option => "--" ++ option.word
  | .value option => "--" ++ option.word ++ " <" ++ option.valueName ++ ">"
  | .files => "<FILES>..."

end Parameter

/-- What is wrong with a command line. -/
inductive UsageError where
  /-- No option is called like that. -/
  | unknownArgument (argument : List Char)
  /-- A value is missing, or empty where it can't be. -/
  | missingValue (parameter : Parameter)
  /-- An option is given twice. -/
  | repeated (parameter : Parameter)
  /-- A value is attached to a flag. -/
  | unexpectedValue (flag : Flag) (value : List Char)
  /-- A value that must be a text isn't one. -/
  | notText
  /-- There is no file to embed. -/
  | noFiles
  deriving DecidableEq, Repr

/-- Why a command line leads to no run. -/
inductive Refusal where
  | usage (e : UsageError)
  /-- The help text was asked for. -/
  | help
  /-- The version was asked for. -/
  | version
  deriving DecidableEq, Repr

end TextEmbed.Command
