import Mathlib.Data.List.Forall2
import TextEmbed.Identifier

/-!
# Identifiers and clashes

An identifier is what the settings put in front, and then the name with an underscore for every
character that is neither a letter nor a digit. So C accepts it unless what stands in front, or the
name if nothing does, makes a start that C doesn't accept. Two names clash if they differ in such
characters only.

## Main definitions

* `Identifier.IsValid`: the identifiers of C;
* `Identifier.Alike`: characters that identifiers don't tell apart.

## Main results

* `Identifier.isValid_ofName_iff`: the names and leads whose identifiers C accepts;
* `Identifier.ofName_eq_ofName_iff`: the names that clash;
* `Identifier.ofName_isValid_and_clashes`: both, and what identifiers leave of identifiers.
-/

namespace TextEmbed.Identifier

/-- Characters that an identifier of C can start with: ASCII letters and the underscore. -/
def isStart (c : Char) : Bool :=
  c.isAlpha || c == '_'

/-- Characters that an identifier of C can go on with: ASCII letters, digits and the underscore. -/
def isPart (c : Char) : Bool :=
  c.isAlphanum || c == '_'

/-- The text is an identifier of C. Keywords are not told apart. -/
def IsValid (text : List Char) : Prop :=
  ∃ first rest, text = first :: rest ∧ isStart first = true ∧ ∀ c ∈ rest, isPart c = true

/-- Characters that are the same, or neither of which is an ASCII letter or digit. -/
def Alike (c d : Char) : Prop :=
  c = d ∨ (c.isAlphanum = false ∧ d.isAlphanum = false)

/-! ## Characters -/

/-- No letter is a digit. -/
theorem isDigit_eq_false_of_isAlpha {c : Char} (h : c.isAlpha = true) : c.isDigit = false := by
  -- digits stand in front of upper case letters, and these in front of lower case ones
  have hdigits : '9'.val < 'A'.val := by decide
  have hcases : 'A'.val ≤ 'a'.val := by decide
  have hle : 'A'.val ≤ c.val := by
    rcases Bool.or_eq_true_iff.mp h with hupper | hlower
    · exact (of_decide_eq_true hupper).1
    · exact UInt32.le_trans hcases (of_decide_eq_true (Bool.and_eq_true_iff.mp hlower).1)
  have hnot : ¬ c.val ≤ '9'.val := UInt32.not_le.mpr (UInt32.lt_of_lt_of_le hdigits hle)
  exact Bool.and_eq_false_iff.mpr (.inr (decide_eq_false hnot))

theorem symbolChar_of_isAlphanum {c : Char} (h : c.isAlphanum = true) : symbolChar c = c :=
  if_pos h

theorem symbolChar_of_not_isAlphanum {c : Char} (h : c.isAlphanum = false) : symbolChar c = '_' :=
  if_neg (by simp [h])

/-- Whatever a character is, an identifier can go on with what stands for it. -/
theorem isPart_symbolChar (c : Char) : isPart (symbolChar c) = true := by
  cases h : c.isAlphanum with
  | true => simp [isPart, symbolChar_of_isAlphanum h, h]
  | false => simp [isPart, symbolChar_of_not_isAlphanum h]

/-- An identifier can start with what stands for a character, unless it is a digit. -/
theorem isStart_symbolChar (c : Char) : isStart (symbolChar c) = !c.isDigit := by
  cases h : c.isAlphanum with
  | true =>
    rw [symbolChar_of_isAlphanum h, isStart]
    cases halpha : c.isAlpha with
    | true => rw [isDigit_eq_false_of_isAlpha halpha]; rfl
    | false =>
      have hdigit : c.isDigit = true := by simpa [Char.isAlphanum, halpha] using h
      have hne : c ≠ '_' := by rintro rfl; simp at hdigit
      simp [hdigit, hne]
  | false =>
    have hdigit : c.isDigit = false := (Bool.or_eq_false_iff.mp h).2
    rw [symbolChar_of_not_isAlphanum h, hdigit]
    rfl

/-- The characters that stand for themselves are those that an identifier can go on with. -/
theorem symbolChar_eq_self_iff (c : Char) : symbolChar c = c ↔ isPart c = true := by
  constructor
  · intro h
    rw [← h]
    exact isPart_symbolChar c
  · intro h
    rcases Bool.or_eq_true_iff.mp h with halphanum | hunderscore
    · exact symbolChar_of_isAlphanum halphanum
    · rw [beq_iff_eq.mp hunderscore]
      rfl

theorem symbolChar_comp_symbolChar : symbolChar ∘ symbolChar = symbolChar :=
  funext fun c => (symbolChar_eq_self_iff _).mpr (isPart_symbolChar c)

/-- The underscore stands for all characters but letters and digits, which stand for themselves. -/
theorem symbolChar_eq_symbolChar_iff (c d : Char) : symbolChar c = symbolChar d ↔ Alike c d := by
  have hunderscore : Char.isAlphanum '_' = false := rfl
  cases hc : c.isAlphanum <;> cases hd : d.isAlphanum
  · simp [Alike, symbolChar_of_not_isAlphanum, hc, hd]
  -- a letter or digit is no underscore
  · rw [symbolChar_of_not_isAlphanum hc, symbolChar_of_isAlphanum hd]
    have hne : '_' ≠ d := by rintro rfl; simp [hunderscore] at hd
    have hcd : c ≠ d := by rintro rfl; simp [hc] at hd
    simp [Alike, hne, hcd, hd]
  · rw [symbolChar_of_isAlphanum hc, symbolChar_of_not_isAlphanum hd]
    have hne : c ≠ '_' := by rintro rfl; simp [hunderscore] at hc
    have hcd : c ≠ d := by rintro rfl; simp [hd] at hc
    simp [Alike, hne, hcd, hc]
  · simp [Alike, symbolChar_of_isAlphanum, hc, hd]

/-! ## Names -/

/-- Behind a lead there are only characters that an identifier can go on with, so the lead decides.
Without a lead the first character of the name does. -/
theorem isValid_ofName_iff (lead name : List Char) :
    IsValid (ofName lead name) ↔
      IsValid lead ∨ (lead = [] ∧ ∃ first rest, name = first :: rest ∧ first.isDigit = false) := by
  have hname : ∀ c ∈ name.map symbolChar, isPart c = true := by
    intro c hc
    obtain ⟨original, -, rfl⟩ := List.mem_map.mp hc
    exact isPart_symbolChar original
  cases lead with
  | nil =>
    cases name with
    | nil => simp [IsValid, ofName]
    | cons first rest =>
      have hrest : ∀ c ∈ rest.map symbolChar, isPart c = true :=
        (List.forall_mem_cons.mp hname).2
      simpa [IsValid, ofName, isStart_symbolChar] using fun _ => hrest
  | cons first rest =>
    simp only [IsValid, ofName, List.cons_append, List.cons.injEq, reduceCtorEq, false_and,
      or_false]
    constructor
    · rintro ⟨_, _, ⟨rfl, rfl⟩, hfirst, hparts⟩
      exact ⟨_, _, ⟨rfl, rfl⟩, hfirst, (List.forall_mem_append.mp hparts).1⟩
    · rintro ⟨_, _, ⟨rfl, rfl⟩, hfirst, hrest⟩
      exact ⟨_, _, ⟨rfl, rfl⟩, hfirst, List.forall_mem_append.mpr ⟨hrest, hname⟩⟩

/-- Under one lead, names clash if they have the same length and like characters at every place. -/
theorem ofName_eq_ofName_iff (lead first second : List Char) :
    ofName lead first = ofName lead second ↔ List.Forall₂ Alike first second := by
  rw [ofName, ofName, List.append_cancel_left_eq, ← List.forall₂_eq_eq_eq,
    List.forall₂_map_left_iff, List.forall₂_map_right_iff]
  simp only [symbolChar_eq_symbolChar_iff]

/-- Which identifiers come out, and which names clash. An identifier is one of C if the lead is, or
if there is no lead and the name has a first character that is no digit. Names clash under a lead if
they have as many characters, and at every place the same or two that are neither letters nor
digits. What an identifier is made of stays as it is when it is made into an identifier again. -/
theorem ofName_isValid_and_clashes (lead name : List Char) :
    (IsValid (ofName lead name) ↔
      IsValid lead ∨ (lead = [] ∧ ∃ first rest, name = first :: rest ∧ first.isDigit = false)) ∧
    (∀ other, ofName lead name = ofName lead other ↔ List.Forall₂ Alike name other) ∧
    ofName lead (ofName [] name) = ofName lead name ∧
    (ofName [] (ofName lead name) = ofName lead name ↔ ∀ c ∈ lead, isPart c = true) := by
  refine ⟨isValid_ofName_iff lead name, ofName_eq_ofName_iff lead name, ?_, ?_⟩
  · rw [ofName, ofName, ofName, List.nil_append, List.map_map, symbolChar_comp_symbolChar]
  · have hlead := List.map_inj_left (l := lead) (f := symbolChar) (g := id)
    simp only [List.map_id, id_eq, symbolChar_eq_self_iff] at hlead
    rw [ofName, ofName, List.nil_append, List.map_append, List.map_map, symbolChar_comp_symbolChar,
      List.append_cancel_right_eq, hlead]

end TextEmbed.Identifier
