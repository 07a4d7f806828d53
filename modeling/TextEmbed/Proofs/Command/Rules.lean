import TextEmbed.Command.Library
import TextEmbed.Proofs.FileTree

/-!
# The rules of the library

The library that reads the command line is known by its documentation only. `Library.Rules` is what
is relied on: the ways in which an occurrence of a parameter can be written, and what it adds to
what is found among the arguments behind it. Each rule is about one occurrence, in one way of
writing it. What a command line comes to that has many of them, in any order, no rule says, and none
says anything about a command line that is refused.

## Main definitions

* `Command.Item`: an occurrence of a parameter;
* `Command.Matches.Admits` and `Command.Matches.add`: whether an occurrence can stand in front of
  others, and what it adds to them;
* `Command.ValueOption.Spelled`: the arguments that give an option its value;
* `Command.Library.Rules`: what the library documents.

## Main results

* `Command.Library.Rules.find_spelled`: however its value is given, an option gets it;
* `Command.Library.Rules.read_eq_ok`: a command line is accepted if files are found.
-/

namespace TextEmbed.Command

/-- An occurrence of a parameter. -/
inductive Item where
  | flag (flag : Flag)
  /-- An option and its value. -/
  | value (option : ValueOption) (value : List UInt8)
  | file (path : List UInt8)
  deriving DecidableEq

/-- Which values can be given. -/
def ValueKind.Accepts : ValueKind → List UInt8 → Prop
  | text, value => ∃ text, value = Utf8.encode text
  | path, value => value ≠ []

namespace Matches

/-- An occurrence can be added to what was found. What is switched on and what has a value was not
given before. -/
def Admits (found : Matches) : Item → Prop
  | .flag flag =>
    match flag.action with
    | .switchOn => found.count flag = 0
    | .count => True
    | .help | .version => False
  | .value option value => found.value? option = none ∧ option.kind.Accepts value
  | .file path => ValueKind.path.Accepts path

/-- What an occurrence adds that stands in front. -/
def add (item : Item) (found : Matches) : Matches :=
  match item with
  | .flag flag => found.countFlag flag
  | .value option value => found.setValue option value
  | .file path => { found with files := ⟨path⟩ :: found.files }

end Matches

/-! ## Ways of writing -/

namespace Flag

/-- The letter of a flag, behind a dash. -/
def short (flag : Flag) : List UInt8 :=
  [Shape.dash, flag.letter.toUInt8]

/-- The word of a flag, behind two dashes. -/
def long (flag : Flag) : List UInt8 :=
  Shape.dash :: Shape.dash :: Utf8.encode flag.word.toList

end Flag

namespace ValueOption

/-- The letter of an option, behind a dash. -/
def short (option : ValueOption) : List UInt8 :=
  [Shape.dash, option.letter.toUInt8]

/-- The word of an option, behind two dashes. -/
def long (option : ValueOption) : List UInt8 :=
  Shape.dash :: Shape.dash :: Utf8.encode option.word.toList

/-- The arguments that give an option a value. -/
inductive Spelled (option : ValueOption) (value : List UInt8) : List (List UInt8) → Prop
  | short (h : Shape.IsPlain value) : Spelled option value [option.short, value]
  | long (h : Shape.IsPlain value) : Spelled option value [option.long, value]
  /-- A value that starts with an equals sign needs another one in front. -/
  | shortAttached (hne : value ≠ []) (h : value.head? ≠ some Shape.equals) :
      Spelled option value [option.short ++ value]
  | shortEquals : Spelled option value [option.short ++ Shape.equals :: value]
  | longEquals : Spelled option value [option.long ++ Shape.equals :: value]

end ValueOption

/-- Two dashes alone. -/
def Shape.twoDashes : List UInt8 :=
  [dash, dash]

/-! ## Rules -/

/-- What the library documents about parameters that are declared as these are, as far as it is
relied on. -/
structure Library.Rules (library : Library) : Prop where
  /-- Nothing is found where there is nothing. -/
  nil : library.find [] = .ok {}
  /-- A flag is given by its word behind two dashes. -/
  longFlag {flag : Flag} {rest : List (List UInt8)} {found : Matches}
    (hrest : library.find rest = .ok found) (h : found.Admits (.flag flag)) :
    library.find (flag.long :: rest) = .ok (found.add (.flag flag))
  /-- A flag is given by its letter behind a dash. -/
  shortFlag {flag : Flag} {rest : List (List UInt8)} {found : Matches}
    (hrest : library.find rest = .ok found) (h : found.Admits (.flag flag)) :
    library.find (flag.short :: rest) = .ok (found.add (.flag flag))
  /-- The letter of a flag can share the dash of the letters behind it. -/
  cluster {flag : Flag} {letter : UInt8} {letters : List UInt8} {rest : List (List UInt8)}
    {found : Matches} (hletter : letter ≠ Shape.dash)
    (hrest : library.find ((Shape.dash :: letter :: letters) :: rest) = .ok found)
    (h : found.Admits (.flag flag)) :
    library.find ((Shape.dash :: flag.letter.toUInt8 :: letter :: letters) :: rest) =
      .ok (found.add (.flag flag))
  /-- The value of an option is the argument behind its word, if that is plain. -/
  longValue {option : ValueOption} {value : List UInt8} {rest : List (List UInt8)}
    {found : Matches} (hvalue : Shape.IsPlain value) (hrest : library.find rest = .ok found)
    (h : found.Admits (.value option value)) :
    library.find (option.long :: value :: rest) = .ok (found.add (.value option value))
  /-- The value of an option is the argument behind its letter, if that is plain. -/
  shortValue {option : ValueOption} {value : List UInt8} {rest : List (List UInt8)}
    {found : Matches} (hvalue : Shape.IsPlain value) (hrest : library.find rest = .ok found)
    (h : found.Admits (.value option value)) :
    library.find (option.short :: value :: rest) = .ok (found.add (.value option value))
  /-- The value of an option can be attached to its word, behind an equals sign. -/
  longEquals {option : ValueOption} {value : List UInt8} {rest : List (List UInt8)}
    {found : Matches} (hrest : library.find rest = .ok found)
    (h : found.Admits (.value option value)) :
    library.find ((option.long ++ Shape.equals :: value) :: rest) =
      .ok (found.add (.value option value))
  /-- The value of an option can be attached to its letter, behind an equals sign. -/
  shortEquals {option : ValueOption} {value : List UInt8} {rest : List (List UInt8)}
    {found : Matches} (hrest : library.find rest = .ok found)
    (h : found.Admits (.value option value)) :
    library.find ((option.short ++ Shape.equals :: value) :: rest) =
      .ok (found.add (.value option value))
  /-- The value of an option can be attached to its letter right away. -/
  shortAttached {option : ValueOption} {value : List UInt8} {rest : List (List UInt8)}
    {found : Matches} (hne : value ≠ []) (hequals : value.head? ≠ some Shape.equals)
    (hrest : library.find rest = .ok found) (h : found.Admits (.value option value)) :
    library.find ((option.short ++ value) :: rest) = .ok (found.add (.value option value))
  /-- A plain argument is a file. -/
  file {path : List UInt8} {rest : List (List UInt8)} {found : Matches}
    (hplain : Shape.IsPlain path) (hrest : library.find rest = .ok found)
    (h : found.Admits (.file path)) :
    library.find (path :: rest) = .ok (found.add (.file path))
  /-- All arguments behind two dashes are files. -/
  separated {paths : List (List UInt8)} (hpaths : ∀ path ∈ paths, ValueKind.path.Accepts path) :
    library.find (Shape.twoDashes :: paths) = .ok { files := paths.map Path.mk }
  /-- Files are all that is required. -/
  complete {found : Matches} (hfiles : found.files ≠ []) :
    library.complete found = .ok found.withDefaults

namespace Library.Rules

variable {library : Library} {found : Matches}

/-- However its value is given, an option gets it. -/
theorem find_spelled (hrules : library.Rules) {option : ValueOption} {value : List UInt8}
    {words rest : List (List UInt8)} (hwords : option.Spelled value words)
    (hrest : library.find rest = .ok found) (h : found.Admits (.value option value)) :
    library.find (words ++ rest) = .ok (found.add (.value option value)) := by
  cases hwords with
  | short hvalue => exact hrules.shortValue hvalue hrest h
  | long hvalue => exact hrules.longValue hvalue hrest h
  | shortAttached hne hequals => exact hrules.shortAttached hne hequals hrest h
  | shortEquals => exact hrules.shortEquals hrest h
  | longEquals => exact hrules.longEquals hrest h

/-- Where files are found, a command line asks for what is found, and for defaults. -/
theorem read_eq_ok (hrules : library.Rules) {arguments : List (List UInt8)}
    (hfind : library.find arguments = .ok found) (hfiles : found.files ≠ []) :
    Options.read library arguments = .ok (Options.ofMatches found.withDefaults) := by
  rw [Options.read, bind_of_eq_ok hfind, bind_of_eq_ok (hrules.complete hfiles)]
  rfl

end Library.Rules

end TextEmbed.Command
