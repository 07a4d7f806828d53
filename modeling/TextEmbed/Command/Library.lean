import TextEmbed.Command.Options

/-!
# The library for command lines

The program reads no command line. It declares its parameters, and a library (clap, version 4) finds
them among the arguments. The library is not part of the program, and not of this development
either: here it is any `Library`, and what is said about command lines is said of every library that
follows the documented rules. `Library.clap` is written after them, so that the program can run.

What is the program's own is the declaration of the parameters, and what it takes from what the
library has found.
-/

namespace TextEmbed.Command

/-- What is found on a command line. -/
@[ext]
structure Matches where
  /-- How often each flag counts. -/
  count : Flag → Nat := fun _ => 0
  /-- The value of each option that has one. -/
  value? : ValueOption → Option (List UInt8) := fun _ => none
  /-- The files, in order. -/
  files : List Path := []

namespace Matches

/-- A flag doesn't count more often than this. -/
def maxCount : Nat := 255

/-- Counts a flag once more. -/
def countFlag (flag : Flag) (found : Matches) : Matches :=
  { found with
    count := fun other =>
      if other = flag then min maxCount (found.count flag + 1) else found.count other }

/-- Gives an option its value. -/
def setValue (option : ValueOption) (value : List UInt8) (found : Matches) : Matches :=
  { found with
    value? := fun other => if other = option then some value else found.value? other }

/-- Gives the default to every option that has one and isn't given. -/
def withDefaults (found : Matches) : Matches :=
  { found with
    value? := fun option => found.value? option <|> option.default?.map Utf8.encode }

/-- The value of an option, which is a text. -/
def text (found : Matches) (option : ValueOption) : List Char :=
  Utf8.lossy ((found.value? option).getD [])

end Matches

/-- A library that reads command lines. -/
structure Library where
  /-- Finds the parameters among arguments. -/
  find : List (List UInt8) → Except Refusal Matches
  /-- Gives defaults to options, and checks that nothing is missing. -/
  complete : Matches → Except Refusal Matches

namespace Options

/-- The options that the program takes from a complete command line. -/
def ofMatches (found : Matches) : Options :=
  { settings :=
      { stripComments := found.count .stripComments != 0
        lead := found.text .lead
        pointerType := found.text .pointerType }
    output := (found.value? .output).map Path.mk
    verbosity := found.count .verbose
    files := found.files }

/-- The options that a command line asks for. The name of the program is no argument. -/
def read (library : Library) (arguments : List (List UInt8)) : Except Refusal Options := do
  let found ← library.find arguments
  let complete ← library.complete found
  return ofMatches complete

end Options

/-! ## What arguments look like -/

namespace Shape

/-- The dash in front of options. -/
def dash : UInt8 := 0x2D

/-- The sign in front of an attached value. -/
def equals : UInt8 := 0x3D

/-- The argument can't be taken for an option. -/
def IsPlain (argument : List UInt8) : Prop :=
  argument = [dash] ∨ argument.head? ≠ some dash

instance (argument : List UInt8) : Decidable (IsPlain argument) := by
  unfold IsPlain
  infer_instance

end Shape

end TextEmbed.Command
