import TextEmbed.Command.Library

/-!
# Reading a command line

`Library.clap` stands for the library that the program is built with, which is not part of it. It is
written after the documented behaviour of clap, version 4, as far as the declared parameters call
for it, errors included.

Arguments are read from left to right. An option with dashes is a flag, or takes a value: attached
to it, or as the next argument if that one doesn't start with a dash. Everything else is a file, and
so is every argument behind `--`.

Files, and values that are arguments of their own, are checked late: when the next option comes,
when files follow a value, or at the end. An argument that nothing is called like, or a value
attached to a flag, is an error at once, whatever is still to check.
-/

namespace TextEmbed.Command

/-- Checks a value of a parameter. -/
def ValueKind.check (kind : ValueKind) (parameter : Parameter) (value : List UInt8) :
    Except Refusal Unit :=
  match kind with
  | .text =>
    match Utf8.decode value with
    | .ok _ => .ok ()
    | .error _ => .error (.usage .notText)
  | .path => if value = [] then .error (.usage (.missingValue parameter)) else .ok ()

/-- What is still to check. -/
inductive Pending where
  | nothing
  /-- The value of an option, if there was one. -/
  | value (option : ValueOption) (value : Option (List UInt8))
  /-- Files in a row, the last one first. -/
  | files (paths : List (List UInt8))

namespace Matches

/-- Takes a flag into account. -/
def raise (found : Matches) (flag : Flag) : Except Refusal Matches :=
  match flag.action with
  | .switchOn =>
    if found.count flag = 0 then .ok (found.countFlag flag)
    else .error (.usage (.repeated (.flag flag)))
  | .count => .ok (found.countFlag flag)
  | .help => .error .help
  | .version => .error .version

/-- Gives an option its value, which is possible once. -/
def assign (found : Matches) (option : ValueOption) (value : List UInt8) :
    Except Refusal Matches :=
  if (found.value? option).isSome then .error (.usage (.repeated (.value option)))
  else (option.kind.check (.value option) value).map fun () => found.setValue option value

/-- Takes a file into account. -/
def addFile (found : Matches) (path : List UInt8) : Except Refusal Matches :=
  (ValueKind.path.check .files path).map fun () => { found with files := found.files ++ [⟨path⟩] }

/-- Checks what is still to check. -/
def settle (found : Matches) : Pending → Except Refusal Matches
  | .nothing => .ok found
  | .value option none => .error (.usage (.missingValue (.value option)))
  | .value option (some value) => found.assign option value
  | .files paths => paths.reverse.foldlM addFile found

end Matches

/-- What an argument with dashes looks like. -/
inductive Dashed where
  /-- Two dashes and a word, with a value if there is an equals sign behind the word. -/
  | long (word : List UInt8) (value : Option (List UInt8))
  /-- A dash and letters. -/
  | cluster (letters : List UInt8)
  deriving DecidableEq, Repr

/-- What an argument looks like. -/
inductive Shape where
  /-- No dash in front, or a dash alone. -/
  | plain
  /-- Two dashes alone. -/
  | separator
  | dashed (argument : Dashed)
  deriving DecidableEq, Repr

namespace Shape

/-- The value behind the first equals sign, if there is one. -/
def attached? (bytes : List UInt8) : Option (List UInt8) :=
  match bytes.dropWhile (· ≠ equals) with
  | [] => none
  | _ :: value => some value

/-- The shape of an argument. -/
def ofArgument : List UInt8 → Shape
  | [] => .plain
  | [_] => .plain
  | first :: second :: rest =>
    if first ≠ dash then .plain
    else if second ≠ dash then .dashed (.cluster (second :: rest))
    else if rest = [] then .separator
    else .dashed (.long (rest.takeWhile (· ≠ equals)) (attached? rest))

end Shape

/-- Where reading stands: what is checked, and what isn't. -/
structure Reading where
  /-- What is checked. -/
  found : Matches := {}
  /-- What is still to check. -/
  pending : Pending := .nothing

/-- What an argument with dashes leads to. -/
inductive Progress where
  /-- It is complete. -/
  | done (found : Matches)
  /-- The next argument may be the value of an option. -/
  | wants (option : ValueOption) (found : Matches)

namespace Reading

/-- Checks what is still to check. -/
def checked (reading : Reading) : Except Refusal Matches :=
  reading.found.settle reading.pending

/-- How an unknown letter is shown: by itself, or with all that follows if that is no text. -/
def unknownLetter (letters : List UInt8) : List Char :=
  match Utf8.pieces letters with
  | .scalar c :: _ => ['-', c]
  | _ => '-' :: Utf8.lossy letters

/-- The value in the same argument as the letter of its option, behind an equals sign or not. -/
def valueBehindLetter (letters : List UInt8) : List UInt8 :=
  match letters with
  | [] => []
  | b :: rest => if b = Shape.equals then rest else b :: rest

/-- Reads the letters behind a dash. What follows the letter of an option with a value is the value,
and not further letters. -/
def cluster (reading : Reading) : List UInt8 → Except Refusal Progress
  | [] => reading.checked.map .done
  | letter :: rest =>
    match Flag.ofLetter? letter, ValueOption.ofLetter? letter with
    | some flag, _ => do
      let found ← (← reading.checked).raise flag
      cluster { found } rest
    | none, some option => do
      let found ← reading.checked
      if rest = [] then return .wants option found
      else return .done (← found.assign option (valueBehindLetter rest))
    | none, none => .error (.usage (.unknownArgument (unknownLetter (letter :: rest))))

/-- Reads a word behind two dashes. -/
def long (reading : Reading) (word : List UInt8) (value : Option (List UInt8)) :
    Except Refusal Progress :=
  match Flag.ofWord? word, ValueOption.ofWord? word, value with
  | some flag, _, none => do
    return .done (← (← reading.checked).raise flag)
  | some flag, _, some value => .error (.usage (.unexpectedValue flag (Utf8.lossy value)))
  | none, some option, none => reading.checked.map (.wants option)
  | none, some option, some value => do
    return .done (← (← reading.checked).assign option value)
  | none, none, _ => .error (.usage (.unknownArgument ('-' :: '-' :: Utf8.lossy word)))

/-- Reads an argument with dashes. -/
def dashed (reading : Reading) : Dashed → Except Refusal Progress
  | .long word value => reading.long word value
  | .cluster letters => reading.cluster letters

/-- Reads a file. Files in a row are checked together. -/
def file (reading : Reading) (path : List UInt8) : Except Refusal Reading :=
  match reading.pending with
  | .files paths => .ok { reading with pending := .files (path :: paths) }
  | _ => reading.checked.map fun found => { found, pending := .files [path] }

/-- Reads the arguments behind `--`. -/
def operands (reading : Reading) (arguments : List (List UInt8)) : Except Refusal Matches := do
  (← arguments.foldlM file reading).checked

/-- Reads arguments, from the first one on. -/
def arguments (reading : Reading) : List (List UInt8) → Except Refusal Matches
  | [] => reading.checked
  | argument :: others =>
    match Shape.ofArgument argument with
    | .separator => reading.operands others
    | .plain => do
      let reading ← reading.file argument
      reading.arguments others
    | .dashed argument =>
      match reading.dashed argument, others with
      | .error refusal, _ => .error refusal
      | .ok (.done found), others => arguments { found } others
      | .ok (.wants option found), [] => checked { found, pending := .value option none }
      | .ok (.wants option found), value :: others =>
        if Shape.ofArgument value = .plain then
          arguments { found, pending := .value option (some value) } others
        else arguments { found, pending := .value option none } (value :: others)

end Reading

/-- What stands for the library that the program is built with. -/
def Library.clap : Library where
  find := Reading.arguments {}
  complete found := if found.files = [] then .error (.usage .noFiles) else .ok found.withDefaults

/-- The options that a command line of the program asks for. -/
def Options.ofArguments (arguments : List (List UInt8)) : Except Refusal Options :=
  read .clap arguments

end TextEmbed.Command
