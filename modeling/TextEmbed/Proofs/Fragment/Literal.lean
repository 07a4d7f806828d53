import TextEmbed.Proofs.Fragment.Json
import TextEmbed.Utf8

/-!
# Fragments as literals of C

Fragments are written with the escapes of JSON, and it is a C compiler that reads them. The reader
of this module knows the string literals of C11 without trigraphs: simple escapes, octal and
hexadecimal ones, and universal character names as far as C allows them, which is not below `A0`
but for three characters. So it reads what JSON escapes with a letter, and refuses what JSON escapes
with a code.

## Main definitions

* `Literal.read`: reads a string literal;
* `Literal.value?`: the bytes that adjacent literals denote as one string;
* `Literal.isUnnamed`: control characters that C can't read as they are written.

## Main results

* `Literal.readChar_escapeChar`: what is read of a character that is written;
* `Literal.read_quote`: what is read of a quoted text;
* `Literal.readAll_flatMap_spaced`: what is read of quoted texts with white space between them.
-/

namespace TextEmbed

namespace Literal

open Text

/-- The byte that a backslash and `c` denote, if that is a simple escape. -/
def simple? (c : Char) : Option UInt8 :=
  match c with
  | '\x27' => some 0x27
  | '"' => some 0x22
  | '?' => some 0x3F
  | '\\' => some 0x5C
  | 'a' => some 0x07
  | 'b' => some 0x08
  | 'f' => some 0x0C
  | 'n' => some 0x0A
  | 'r' => some 0x0D
  | 't' => some 0x09
  | 'v' => some 0x0B
  | _ => none

/-- Digits of a base of at most sixteen. -/
def isDigit (base : Nat) (c : Char) : Bool :=
  (Json.hexValue? c).any (· < base)

/-- The number that digits denote. -/
def number (base : Nat) (digits : List Char) : Nat :=
  digits.foldl (fun value c => value * base + (Json.hexValue? c).getD 0) 0

/-- Reads the byte that `digits` denote at the front of a text. There has to be a digit, and the
number has to fit into a byte. -/
def readByte (base : Nat) (digits : List Char) : Reader (List UInt8) := fun text =>
  if digits = [] ∨ 0x100 ≤ number base digits then none
  else some ([.ofNat (number base digits)], text.drop digits.length)

/-- Characters that a universal character name can name. -/
def IsNameable (value : Nat) : Prop :=
  value.isValidChar ∧ (0xA0 ≤ value ∨ value = 0x24 ∨ value = 0x40 ∨ value = 0x60)

instance (value : Nat) : Decidable (IsNameable value) := by
  unfold IsNameable
  infer_instance

/-- Reads a universal character name of `count` digits. -/
def readName (count : Nat) : Reader (List UInt8) := fun text =>
  let digits := text.take count
  if digits.length = count ∧ digits.all (isDigit 16) ∧ IsNameable (number 16 digits) then
    some (String.utf8EncodeChar (.ofNat (number 16 digits)), text.drop count)
  else none

/-- Reads what stands behind a backslash. -/
def readEscape : Reader (List UInt8)
  | [] => none
  | 'x' :: text => readByte 16 (text.takeWhile (isDigit 16)) text
  | 'u' :: text => readName 4 text
  | 'U' :: text => readName 8 text
  | c :: text =>
    match simple? c with
    | some b => some ([b], text)
    | none => readByte 8 (((c :: text).take 3).takeWhile (isDigit 8)) (c :: text)

/-- Reads one character between the quotes of a string literal. -/
def readChar : Reader (List UInt8)
  | [] => none
  | '\\' :: text => readEscape text
  | c :: text => if c = '"' ∨ c = '\n' then none else some (String.utf8EncodeChar c, text)

/-- Reads a string literal: the bytes it denotes, and what is behind it. -/
def read : Reader (List UInt8) := fun text =>
  ((text.dropPrefix? ['"']).bind (readUntil (·.dropPrefix? ['"']) readChar)).map fun inside =>
    (inside.1.flatten, inside.2)

/-- White space between literals. -/
def isSpace (c : Char) : Bool :=
  c == ' ' || c == '\n' || c == '\t' || c == '\x0b' || c == '\x0c'

/-- Nothing but white space is left. -/
def atEnd (text : List Char) : Option (List Char) :=
  if text.all isSpace then some [] else none

/-- Reads adjacent literals to the end of a text: the bytes that each denotes. -/
def readAll (text : List Char) : Option (List (List UInt8)) :=
  (readUntil atEnd (fun text => read (text.dropWhile isSpace)) text).map Prod.fst

/-- The bytes that adjacent literals denote as one string, `none` if there is no literal or if one
of them is ill-formed. -/
def value? (text : List Char) : Option (List UInt8) :=
  (readAll text).bind fun values => if values = [] then none else some values.flatten

example : value? " \"\\x41\\102\" \"\\u00e9\"\n".toList = some [0x41, 0x42, 0xC3, 0xA9] := by
  decide +kernel

/-- Control characters that no letter behind a backslash stands for in JSON: those up to `U+0007`,
`U+000B`, and those from `U+000E` on. -/
def isUnnamed (c : Char) : Bool :=
  c ≤ '\x07' || c == '\x0b' || ('\x0e' ≤ c && c ≤ '\x1f')

theorem isUnnamed_iff {c : Char} :
    isUnnamed c = true ↔ c.toNat ≤ 0x07 ∨ c.toNat = 0x0B ∨ 0x0E ≤ c.toNat ∧ c.toNat ≤ 0x1F := by
  simp only [isUnnamed, Bool.or_eq_true, Bool.and_eq_true, decide_eq_true_eq, beq_iff_eq,
    or_assoc, ← Char.toNat_inj]
  rfl

/-! ## Reading what is written -/

/-- The universal character name of a control character is none. -/
theorem readName_of_lt {c : Char} (hcontrol : c < ' ') (rest : List Char) :
    readName 4 ('0' :: '0' :: Nat.digitChar (c.toNat / 16) :: Nat.digitChar (c.toNat % 16) ::
      rest) = none := by
  have hlt : c.toNat < 32 := hcontrol
  have hhigh := Json.hexValue?_digitChar (c.toNat / 16) (by omega)
  have hlow := Json.hexValue?_digitChar (c.toNat % 16) (by omega)
  have hzero : Json.hexValue? '0' = some 0 := rfl
  have hvalue : number 16 ['0', '0', Nat.digitChar (c.toNat / 16), Nat.digitChar (c.toNat % 16)] =
      c.toNat := by
    simp only [number, List.foldl_cons, List.foldl_nil, hhigh, hlow, hzero, Option.getD_some]
    omega
  have hname : ¬ IsNameable c.toNat := by
    rintro ⟨-, h⟩
    omega
  simp only [readName, List.take_succ_cons, List.take_zero, hvalue, hname, and_false, if_false]

/-- Control characters that are written by their code have no letter. -/
theorem isUnnamed_of_escapeChar {c : Char} (hcontrol : c < ' ')
    (h : (Fragment.escapeChar c).length = 6) : isUnnamed c = true := by
  have hall : ∀ value < 32, (Fragment.escapeChar (.ofNat value)).length = 6 →
      isUnnamed (.ofNat value) = true := by
    decide
  have hlt : c.toNat < 32 := hcontrol
  have hc := hall c.toNat hlt
  rw [Char.ofNat_toNat] at hc
  exact hc h

/-- What is read of a character that is written: its bytes, if it is not a control character without
a letter. -/
theorem readChar_escapeChar (c : Char) (rest : List Char) :
    readChar (Fragment.escapeChar c ++ rest) =
      if isUnnamed c then none else some (String.utf8EncodeChar c, rest) := by
  rcases Fragment.escapeChar_cases c with ⟨e, he, h⟩ | ⟨hcontrol, h⟩ | ⟨hplain, h⟩
  -- the letters behind a backslash mean the same in both languages; there is none for a solidus
  · rw [h]
    revert h
    unfold Json.escaped? at he
    split at he <;> cases he <;> intro h
    · rfl
    · rfl
    · simp [Fragment.escapeChar] at h
    · rfl
    · rfl
    · rfl
    · rfl
    · rfl
  · rw [isUnnamed_of_escapeChar hcontrol (by rw [h]; rfl), h]
    exact readName_of_lt hcontrol rest
  -- what stands for itself is above the control characters
  · have hspace : ¬ c.toNat < 32 := fun hlt => hplain (.inl hlt)
    have hunnamed : ¬ isUnnamed c = true := by
      rw [isUnnamed_iff]
      omega
    have hquote : ¬ (c = '"' ∨ c = '\n') := by
      rintro (rfl | rfl)
      · exact hplain (.inr (.inl rfl))
      · exact hspace (by decide)
    rw [h, List.singleton_append, readChar, if_neg hquote, if_neg hunnamed]
    exact fun hc => hplain (.inr (.inr hc))

/-- What is read of a quoted text: its bytes, if there is no control character without a letter in
it. -/
theorem read_quote (text rest : List Char) :
    read (Fragment.quote text ++ rest) =
      if text.any isUnnamed then none else some (Utf8.encode text, rest) := by
  have hend : ('"' :: rest).dropPrefix? ['"'] = some rest := dropPrefix?_append ['"'] rest
  have hinside : readUntil (·.dropPrefix? ['"']) readChar
      (text.flatMap Fragment.escapeChar ++ '"' :: rest) =
        if text.any isUnnamed then none else some (text.map String.utf8EncodeChar, rest) := by
    refine readUntil_flatMap_eq ?_ ?_ hend
    · intro c _ later
      exact readChar_escapeChar c later
    · intro c _
      exact Fragment.dropPrefix?_escapeChar c
  rw [Fragment.quote, List.append_assoc, List.singleton_append, List.cons_append, read,
    ← List.singleton_append, dropPrefix?_append, Option.bind_some, hinside]
  split
  · rfl
  · rfl

/-- A text between quotes, with white space in front of it. -/
def spaced (entry : List Char × List Char) : List Char :=
  entry.1 ++ Fragment.quote entry.2

/-- What is read of quoted texts with white space around them: the bytes of each, if there is no
control character without a letter in any of them. -/
theorem readAll_flatMap_spaced {entries : List (List Char × List Char)} {tail : List Char}
    (hentries : ∀ entry ∈ entries, ∀ c ∈ entry.1, isSpace c = true)
    (htail : ∀ c ∈ tail, isSpace c = true) :
    readAll (entries.flatMap spaced ++ tail) =
      if (entries.map Prod.snd).any (·.any isUnnamed) then none
      else some ((entries.map Prod.snd).map Utf8.encode) := by
  have hend : atEnd tail = some [] := if_pos (List.all_eq_true.mpr htail)
  have hread : readUntil atEnd (fun text => read (text.dropWhile isSpace))
      (entries.flatMap spaced ++ tail) =
        if entries.any (·.2.any isUnnamed) then none
        else some (entries.map fun entry => Utf8.encode entry.2, []) := by
    refine readUntil_flatMap_eq ?_ ?_ hend
    · intro entry hentry later
      rw [spaced, List.append_assoc, List.dropWhile_append_of_pos (hentries entry hentry)]
      exact read_quote entry.2 later
    -- a quote is no white space, so this is not the end
    · intro entry _
      refine ⟨by simp [spaced, Fragment.quote], fun later => ?_⟩
      rw [atEnd, if_neg]
      simp [spaced, Fragment.quote, isSpace]
  rw [readAll, hread, List.any_map, List.map_map]
  simp only [Function.comp_def]
  split
  · rfl
  · rfl

end Literal

end TextEmbed
