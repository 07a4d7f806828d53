import Mathlib.Algebra.Ring.Parity
import Mathlib.Data.List.DropRight
import TextEmbed.Proofs.Fragment.Json
import TextEmbed.Proofs.Text.Lines

/-!
# What fragments look like

Between its outer quotes a fragment has no control character, so it stays on one line, and every
quote there is escaped, so none of them closes the string. A quote is escaped by a backslash that
isn't escaped itself: that is the case if the number of backslashes right before it is odd.

## Main definitions

* `Fragment.backslashesAtEnd`: how many backslashes a text ends with;
* `Fragment.QuotesEscaped`: texts all of whose quotes are escaped.

## Main results

* `Fragment.QuotesEscaped.append`: quotes stay escaped behind a text that escapes nothing behind it;
* `Fragment.quotesEscaped_flatMap_escapeChar`: all quotes are escaped where characters are;
* `Fragment.ofLine_decodes`: a fragment is one JSON string on one line, and denotes its line.
-/

namespace TextEmbed.Fragment

/-! ## Backslashes -/

/-- The number of backslashes at the end of a text. -/
def backslashesAtEnd (text : List Char) : Nat :=
  (text.rtakeWhile (· == '\\')).length

@[simp]
theorem backslashesAtEnd_nil : backslashesAtEnd [] = 0 := rfl

theorem backslashesAtEnd_concat (text : List Char) (c : Char) :
    backslashesAtEnd (text ++ [c]) = if c = '\\' then backslashesAtEnd text + 1 else 0 := by
  rw [backslashesAtEnd, List.rtakeWhile_concat]
  split <;> simp_all [backslashesAtEnd]

/-- Backslashes go on in front of a text that consists of nothing else. -/
theorem backslashesAtEnd_append (front behind : List Char) :
    backslashesAtEnd (front ++ behind) =
      if backslashesAtEnd behind = behind.length then behind.length + backslashesAtEnd front
      else backslashesAtEnd behind := by
  simp only [backslashesAtEnd, List.rtakeWhile, List.length_reverse, List.reverse_append,
    List.takeWhile_append]
  split <;> simp

/-- An even number of backslashes makes no difference to what is escaped behind it. -/
theorem odd_backslashesAtEnd_append {front : List Char} (heven : Even (backslashesAtEnd front))
    (behind : List Char) :
    Odd (backslashesAtEnd (front ++ behind)) ↔ Odd (backslashesAtEnd behind) := by
  rw [backslashesAtEnd_append]
  split
  next hall => rw [hall, Nat.odd_add, iff_true_right heven]
  next => rfl

/-! ## Quotes -/

/-- Every quote of a text is escaped: the number of backslashes right before it is odd. -/
def QuotesEscaped (text : List Char) : Prop :=
  ∀ front behind, text = front ++ '"' :: behind → Odd (backslashesAtEnd front)

theorem quotesEscaped_of_not_mem {text : List Char} (h : '"' ∉ text) : QuotesEscaped text := by
  rintro front behind rfl
  simp at h

/-- Quotes stay escaped behind a text that escapes nothing behind it. -/
theorem QuotesEscaped.append {first second : List Char} (hfirst : QuotesEscaped first)
    (heven : Even (backslashesAtEnd first)) (hsecond : QuotesEscaped second) :
    QuotesEscaped (first ++ second) := by
  intro front behind h
  rcases List.append_eq_append_iff.mp h with ⟨between, rfl, hquote⟩ | ⟨rest, hquote, hrest⟩
  · exact (odd_backslashesAtEnd_append heven between).mpr (hsecond between behind hquote)
  · cases rest with
    -- the quote is the first character of the second text, where nothing would escape it
    | nil => exact absurd (hsecond [] behind hrest.symm) (by simp)
    | cons c rest =>
      obtain ⟨rfl, -⟩ := List.cons.inj hrest
      exact hfirst front rest hquote

/-! ## Characters -/

/-- What stands for a character behind a backslash is no control character. -/
theorem le_of_escaped? {c e : Char} (h : Json.escaped? e = some c) : ' ' ≤ e := by
  unfold Json.escaped? at h
  split at h <;> cases h <;> decide

theorem digitChar_plain : ∀ n < 16, ' ' ≤ Nat.digitChar n ∧ Nat.digitChar n ≠ '\\' := by
  decide

theorem quotesEscaped_pair (e : Char) : QuotesEscaped ['\\', e] := by
  intro front behind h
  match front with
  | [] => simp at h
  | [first] =>
    obtain ⟨rfl, -⟩ := List.cons.inj h
    decide
  | _ :: _ :: _ => simp at h

/-- What is written for a character has no control character, escapes a quote that it holds, and
escapes nothing behind it. -/
theorem escapeChar_safe (c : Char) :
    (∀ d ∈ escapeChar c, ' ' ≤ d) ∧ QuotesEscaped (escapeChar c) ∧
      Even (backslashesAtEnd (escapeChar c)) := by
  rcases escapeChar_cases c with ⟨e, he, h⟩ | ⟨hcontrol, h⟩ | ⟨hplain, h⟩
  -- the backslash escapes what stands behind it, be it a quote or another backslash
  · rw [h]
    refine ⟨?_, quotesEscaped_pair e, ?_⟩
    · simp [le_of_escaped? he]
    · rw [← List.singleton_append, backslashesAtEnd_concat]
      split <;> decide
  · have hlt : c.toNat < 32 := hcontrol
    obtain ⟨hhigh, -⟩ := digitChar_plain (c.toNat / 16) (by omega)
    obtain ⟨hlow, hbackslash⟩ := digitChar_plain (c.toNat % 16) (by omega)
    rw [h]
    refine ⟨?_, quotesEscaped_of_not_mem ?_, ?_⟩
    · simpa using ⟨hhigh, hlow⟩
    · simp
    · have hend := backslashesAtEnd_concat ['\\', 'u', '0', '0', Nat.digitChar (c.toNat / 16)]
        (Nat.digitChar (c.toNat % 16))
      rw [if_neg hbackslash] at hend
      exact hend ▸ Even.zero
  · rw [h]
    refine ⟨?_, quotesEscaped_of_not_mem ?_, ?_⟩
    · simpa using fun hcontrol => hplain (.inl hcontrol)
    · simpa using fun hquote => hplain (.inr (.inl hquote.symm))
    · rw [← List.nil_append [c], backslashesAtEnd_concat, if_neg fun hc => hplain (.inr (.inr hc))]
      exact Even.zero

/-- All quotes are escaped where characters are, and nothing behind them is. -/
theorem quotesEscaped_flatMap_escapeChar (text : List Char) :
    QuotesEscaped (text.flatMap escapeChar) := by
  induction text with
  | nil => exact quotesEscaped_of_not_mem List.not_mem_nil
  | cons c text ih =>
    obtain ⟨-, hquotes, heven⟩ := escapeChar_safe c
    exact hquotes.append heven ih

theorem le_of_mem_flatMap_escapeChar {text : List Char} {d : Char}
    (h : d ∈ text.flatMap escapeChar) : ' ' ≤ d := by
  obtain ⟨c, -, hd⟩ := List.mem_flatMap.mp h
  exact (escapeChar_safe c).1 d hd

/-! ## Fragments -/

/-- Line ends are control characters. -/
theorem isLineEnd_of_le {c : Char} (h : ' ' ≤ c) : Text.isLineEnd c = false := by
  rw [Text.isLineEnd, Bool.or_eq_false_iff, beq_eq_false_iff_ne, beq_eq_false_iff_ne]
  constructor
  · rintro rfl
    exact absurd h (by decide)
  · rintro rfl
    exact absurd h (by decide)

/-- The quotes around what is written for the characters are no control characters, either. -/
theorem le_of_mem_ofLine {line : List Char} {c : Char} (h : c ∈ ofLine line) : ' ' ≤ c := by
  have hquote : ' ' ≤ '"' := by decide
  rcases List.mem_append.mp h with hc | hc
  · rcases List.mem_cons.mp hc with rfl | hc
    · exact hquote
    · exact le_of_mem_flatMap_escapeChar hc
  · rwa [List.mem_singleton.mp hc]

/-- What a fragment denotes is its line with a line feed, and nothing is left of the fragment. -/
theorem readString_ofLine (line : List Char) :
    Json.readString (ofLine line) = some (line ++ ['\n'], []) := by
  have hquote := readString_quote (line ++ ['\n']) []
  rwa [List.append_nil] at hquote

/-- Fragments of different lines are different. -/
theorem ofLine_injective : Function.Injective ofLine := by
  intro first second h
  have hread : (first ++ ['\n'], ([] : List Char)) = (second ++ ['\n'], []) := by
    rw [← Option.some.injEq, ← readString_ofLine first, h, readString_ofLine second]
  exact List.append_cancel_right (Prod.mk.inj hread).1

/-- A fragment is one JSON string, and what it denotes is its line with a line feed. So different
lines have different fragments, and writing what was read of a fragment once more gives the
fragment. Between its outer quotes it has no control character, so it stays on one line, and no
quote that isn't escaped. -/
theorem ofLine_decodes :
    Function.Injective ofLine ∧ ∀ line : List Char,
      Json.readString (ofLine line) = some (line ++ ['\n'], []) ∧
      (Json.readString (ofLine line)).map (fun read => ofLine read.1.dropLast) =
        some (ofLine line) ∧
      (∃ inside, ofLine line = '"' :: inside ++ ['"'] ∧ (∀ c ∈ inside, ' ' ≤ c) ∧
        QuotesEscaped inside) ∧
      ∀ c ∈ ofLine line, Text.isLineEnd c = false := by
  refine ⟨ofLine_injective, fun line => ⟨readString_ofLine line, ?_, ?_, ?_⟩⟩
  · rw [readString_ofLine, Option.map_some, List.dropLast_concat]
  · exact ⟨_, rfl, fun _ => le_of_mem_flatMap_escapeChar, quotesEscaped_flatMap_escapeChar _⟩
  · exact fun c hc => isLineEnd_of_le (le_of_mem_ofLine hc)

end TextEmbed.Fragment
