import TextEmbed.Command.Options
import TextEmbed.Text.ControlSequence

/-!
# What a refused command line prints

The help and version texts, and one line for a command line that makes no sense. The descriptions of
the parameters are the program's; everything else is said by the library for command lines (clap),
which is not part of the program, and is written after what it prints.
-/

namespace TextEmbed.Command

/-- The lines of the help text. -/
def helpLines : List String :=
  ["Embeds shader sources and other text files as C string literals",
   "",
   "Usage: sres [OPTIONS] <FILES>...",
   "",
   "Arguments:",
   "  <FILES>...  Input files. `-` reads from standard input",
   "",
   "Options:",
   "  -c, --strip-comments    Remove C-style `//` comments",
   "  -p, --prefix <PREFIX>   Add prefix to variable names [default: _]",
   "  -t, --type <CHAR_TYPE>  Pointer type used in the declarations [default: GLchar*]",
   "  -o, --output <OUTPUT>   Output file. Standard output is used if it's omitted or `-`",
   "  -v, --verbose...        Print more diagnostics. Can be repeated",
   "  -h, --help              Print help",
   "  -V, --version           Print version"]

/-- The help text. -/
def helpText : List Char :=
  helpLines.flatMap fun line => line.toList ++ ['\n']

/-- The version text. -/
def versionText : List Char :=
  "sres 0.1.0\n".toList

namespace UsageError

/-- The wording of a usage error, for a medium. What the command line holds is cleared of control
sequences. -/
def message (medium : Text.Medium) : UsageError → List Char
  | unknownArgument argument =>
    "error: unexpected argument '".toList ++ Text.plain medium argument ++ "' found".toList
  | missingValue parameter =>
    "error: a value is required for '".toList ++ parameter.display.toList
      ++ "' but none was supplied".toList
  | repeated parameter =>
    "error: the argument '".toList ++ parameter.display.toList
      ++ "' cannot be used multiple times".toList
  | unexpectedValue flag value =>
    "error: unexpected value '".toList ++ Text.plain medium value ++ "' for '".toList
      ++ (Parameter.flag flag).display.toList ++ "' found; no more were expected".toList
  | notText => "error: invalid UTF-8 was detected in one or more arguments".toList
  | noFiles => "error: the following required arguments were not provided:".toList

/-- The first line of the wording, which is all that is shown of it. -/
def headline (medium : Text.Medium) (e : UsageError) : List Char :=
  (e.message medium).takeWhile (· ≠ '\n')

end UsageError

namespace Refusal

/-- What is said: one line for an error, all of the text that was asked for. -/
def message (medium : Text.Medium) : Refusal → List Char
  | usage e => e.headline medium
  | help => helpText
  | version => versionText

/-- The exit code. -/
def exitCode : Refusal → Nat
  | usage _ => 2
  | help | version => 0

end Refusal

end TextEmbed.Command
