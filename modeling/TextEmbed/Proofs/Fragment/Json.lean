import TextEmbed.Fragment
import TextEmbed.Proofs.Text.Reader

/-!
# Reading fragments

A fragment is a JSON string. The reader of this module reads any JSON string: with every escape that
there is, surrogate pairs among them, and with nothing that has to be escaped. It knows nothing of
how fragments are written, and it still reads back the text of every fragment, wherever the fragment
stands.

## Main definitions

* `Json.readChar`: reads a character between the quotes of a JSON string;
* `Json.readString`: reads a JSON string.

## Main results

* `Fragment.readChar_escapeChar`: an escaped character is read as the character;
* `Fragment.readString_quote`: a quoted text is read as the text, up to its closing quote.
-/

namespace TextEmbed

namespace Json

/-- The value of a hexadecimal digit. -/
def hexValue? (c : Char) : Option Nat :=
  if '0' ≤ c ∧ c ≤ '9' then some (c.toNat - '0'.toNat)
  else if 'a' ≤ c ∧ c ≤ 'f' then some (c.toNat - 'a'.toNat + 10)
  else if 'A' ≤ c ∧ c ≤ 'F' then some (c.toNat - 'A'.toNat + 10)
  else none

/-- The code unit that four hexadecimal digits denote, and what is behind them. -/
def readCodeUnit : Text.Reader Nat
  | a :: b :: c :: d :: rest =>
    match hexValue? a, hexValue? b, hexValue? c, hexValue? d with
    | some a, some b, some c, some d => some (((a * 16 + b) * 16 + c) * 16 + d, rest)
    | _, _, _, _ => none
  | _ => none

/-- The character that code units denote, the first of which has been read. A high surrogate needs a
low one behind it, and a low one alone denotes nothing. -/
def readCodeUnits (unit : Nat) : Text.Reader Char := fun text =>
  if unit < 0xD800 ∨ 0xE000 ≤ unit then some (.ofNat unit, text)
  else if 0xDC00 ≤ unit then none
  else
    match text with
    | '\\' :: 'u' :: text =>
      match readCodeUnit text with
      | some (low, rest) =>
        if 0xDC00 ≤ low ∧ low < 0xE000 then
          some (.ofNat (0x10000 + (unit - 0xD800) * 0x400 + (low - 0xDC00)), rest)
        else none
      | none => none
    | _ => none

/-- The character that a backslash and `c` denote. -/
def escaped? (c : Char) : Option Char :=
  match c with
  | '"' => some '"'
  | '\\' => some '\\'
  | '/' => some '/'
  | 'b' => some '\x08'
  | 'f' => some '\x0c'
  | 'n' => some '\n'
  | 'r' => some '\r'
  | 't' => some '\t'
  | _ => none

/-- Reads one character between the quotes of a JSON string. -/
def readChar : Text.Reader Char
  | [] => none
  | '\\' :: 'u' :: text =>
    match readCodeUnit text with
    | some (unit, rest) => readCodeUnits unit rest
    | none => none
  | '\\' :: c :: rest => (escaped? c).map fun c => (c, rest)
  | c :: rest => if c < ' ' ∨ c = '"' ∨ c = '\\' then none else some (c, rest)

/-- Reads a JSON string: its text, and what is behind the closing quote. -/
def readString : Text.Reader (List Char) := fun text =>
  (text.dropPrefix? ['"']).bind (Text.readUntil (·.dropPrefix? ['"']) readChar)

theorem readCodeUnits_of_lt {unit : Nat} (h : unit < 0xD800) (text : List Char) :
    readCodeUnits unit text = some (.ofNat unit, text) := by
  unfold readCodeUnits
  rw [if_pos (.inl h)]

theorem hexValue?_digitChar : ∀ n < 16, hexValue? (Nat.digitChar n) = some n := by
  decide

end Json

namespace Fragment

/-- The three ways in which a character is written: behind a backslash, as its code unit if it is a
control character, and as it is. -/
theorem escapeChar_cases (c : Char) :
    (∃ e, Json.escaped? e = some c ∧ escapeChar c = ['\\', e]) ∨
    (c < ' ' ∧ escapeChar c =
      ['\\', 'u', '0', '0', Nat.digitChar (c.toNat / 16), Nat.digitChar (c.toNat % 16)]) ∨
    (¬(c < ' ' ∨ c = '"' ∨ c = '\\') ∧ escapeChar c = [c]) := by
  unfold escapeChar
  split
  next h => exact .inl ⟨'"', by rw [h]; rfl, rfl⟩
  next hquote =>
  split
  next h => exact .inl ⟨'\\', by rw [h]; rfl, rfl⟩
  next hbackslash =>
  split
  next h => exact .inl ⟨'b', by rw [h]; rfl, rfl⟩
  next =>
  split
  next h => exact .inl ⟨'t', by rw [h]; rfl, rfl⟩
  next =>
  split
  next h => exact .inl ⟨'n', by rw [h]; rfl, rfl⟩
  next =>
  split
  next h => exact .inl ⟨'f', by rw [h]; rfl, rfl⟩
  next =>
  split
  next h => exact .inl ⟨'r', by rw [h]; rfl, rfl⟩
  next =>
  split
  next h => exact .inr (.inl ⟨h, rfl⟩)
  next h => exact .inr (.inr ⟨by simp [h, hquote, hbackslash], rfl⟩)

/-- A character that is written doesn't end the string. -/
theorem dropPrefix?_escapeChar (c : Char) :
    escapeChar c ≠ [] ∧ ∀ later, (escapeChar c ++ later).dropPrefix? ['"'] = none := by
  rcases escapeChar_cases c with ⟨e, -, h⟩ | ⟨-, h⟩ | ⟨hplain, h⟩
  · rw [h]
    exact ⟨by simp, fun _ => rfl⟩
  · rw [h]
    exact ⟨by simp, fun _ => rfl⟩
  · have hquote : (c == '"') = false := by
      rw [beq_eq_false_iff_ne]
      exact fun hc => hplain (.inr (.inl hc))
    rw [h]
    exact ⟨by simp, fun later => by simp [List.dropPrefix?, hquote]⟩

/-- The digits of a control character denote it. -/
theorem readCodeUnit_of_lt {c : Char} (hcontrol : c < ' ') (rest : List Char) :
    Json.readCodeUnit ('0' :: '0' :: Nat.digitChar (c.toNat / 16) ::
      Nat.digitChar (c.toNat % 16) :: rest) = some (c.toNat, rest) := by
  have hlt : c.toNat < 32 := hcontrol
  have hzero : Json.hexValue? '0' = some 0 := rfl
  have hhigh := Json.hexValue?_digitChar (c.toNat / 16) (by omega)
  have hlow := Json.hexValue?_digitChar (c.toNat % 16) (by omega)
  -- two digits are enough below `20`
  have hvalue : ((0 * 16 + 0) * 16 + c.toNat / 16) * 16 + c.toNat % 16 = c.toNat := by omega
  simp only [Json.readCodeUnit, hzero, hhigh, hlow, hvalue]

/-- A character that is written is read as the character. -/
theorem readChar_escapeChar (c : Char) : Json.readChar.Undoes escapeChar c := by
  intro rest
  rcases escapeChar_cases c with ⟨e, he, h⟩ | ⟨hcontrol, h⟩ | ⟨hplain, h⟩
  -- the letter behind the backslash is none that announces a code unit
  · have hu : e ≠ 'u' := by
      rintro rfl
      simp [Json.escaped?] at he
    rw [h, List.cons_append, List.singleton_append, Json.readChar, he, Option.map_some]
    exact hu
  · have hlt : c.toNat < 32 := hcontrol
    rw [h]
    simp only [List.cons_append, List.nil_append, Json.readChar, readCodeUnit_of_lt hcontrol]
    rw [Json.readCodeUnits_of_lt (by omega), Char.ofNat_toNat]
  · have hbackslash : c ≠ '\\' := fun hc => hplain (.inr (.inr hc))
    rw [h, List.singleton_append, Json.readChar, if_neg hplain]
    · exact fun _ hc => absurd hc hbackslash
    · exact fun _ _ hc => absurd hc hbackslash

/-- A quoted text is read as the text, up to its closing quote. -/
theorem readString_quote (text : List Char) : Json.readString.Undoes quote text := by
  intro rest
  have hend : ('"' :: rest).dropPrefix? ['"'] = some rest := Text.dropPrefix?_append ['"'] rest
  rw [quote, List.append_assoc, List.singleton_append, List.cons_append, Json.readString]
  refine Option.bind_eq_some_iff.mpr ⟨_, Text.dropPrefix?_append ['"'] _, ?_⟩
  refine Text.readUntil_flatMap ?_ ?_ hend
  · intro c _
    exact readChar_escapeChar c
  · intro c _
    exact dropPrefix?_escapeChar c

end Fragment

end TextEmbed
