import Mathlib.Data.List.DropRight
import TextEmbed.Proofs.Line.Search
import TextEmbed.Proofs.Text.Lines

/-!
# Contributions as normal forms

What a line contributes is a text that contributes itself: it is not empty, it doesn't end in a
blank character, and it has no comment if comments are stripped. Lines that differ only in what is
behind such a text, blank characters or a comment, contribute the same.

## Main definitions

* `Line.IsNormal`: the texts that contribute themselves.

## Main results

* `Line.contribution_eq_self_iff`: those are the texts in normal form;
* `Line.isNormal_of_contribution`: every contribution is in normal form;
* `Line.cutComment_append_marker`: a comment behind a line is cut off, unless a marker forms across
  the seam or is escaped there;
* `Line.contribution_normalizes`: what makes no difference to a contribution.
-/

namespace TextEmbed

namespace Text

/-- A text ends in a blank character. -/
def EndsBlank (text : List Char) : Prop :=
  ∃ c, text.getLast? = some c ∧ isBlank c = true

theorem trimEnd_eq_rdropWhile (text : List Char) : trimEnd text = text.rdropWhile isBlank :=
  rfl

/-- Nothing is left of a text exactly if it is blank. -/
theorem trimEnd_eq_nil_iff {text : List Char} :
    trimEnd text = [] ↔ ∀ c ∈ text, isBlank c = true :=
  List.rdropWhile_eq_nil_iff

/-- All of a text is left exactly if it doesn't end in a blank character. -/
theorem trimEnd_eq_self_iff {text : List Char} : trimEnd text = text ↔ ¬ EndsBlank text := by
  rw [trimEnd_eq_rdropWhile, List.rdropWhile_eq_self_iff]
  rcases List.eq_nil_or_concat text with rfl | ⟨front, last, rfl⟩
  · simp [EndsBlank]
  · simp [EndsBlank]

/-- What is left of a text doesn't end in a blank character. -/
theorem not_endsBlank_trimEnd (text : List Char) : ¬ EndsBlank (trimEnd text) :=
  trimEnd_eq_self_iff.mp (List.rdropWhile_idempotent isBlank text)

/-- Behind what is left of a text it has nothing but blank characters. -/
theorem exists_eq_trimEnd_append (text : List Char) :
    ∃ blanks, (∀ c ∈ blanks, isBlank c = true) ∧ text = trimEnd text ++ blanks :=
  ⟨text.rtakeWhile isBlank, fun _ => List.mem_rtakeWhile_imp,
    List.rdropWhile_append_rtakeWhile.symm⟩

end Text

namespace Line

theorem withoutComment_isPrefix (stripComments : Bool) (line : List Char) :
    withoutComment stripComments line <+: line := by
  cases stripComments with
  | false => exact List.prefix_rfl
  | true => exact cutComment_isPrefix line

/-- No start of what is left of a line has a comment. -/
theorem withoutComment_eq_self_of_isPrefix {stripComments : Bool} {text line : List Char}
    (h : text <+: withoutComment stripComments line) :
    withoutComment stripComments text = text := by
  cases stripComments with
  | false => rfl
  | true =>
    have hline : cutComment (cutComment line) = cutComment line :=
      cutComment_eq_self_iff.mpr (not_isMarkerAt_cutComment line)
    exact cutComment_eq_self_of_isPrefix h hline

/-! ## Normal forms -/

/-- Texts that are left as they are: with something in them, with no blank character at the end, and
with no comment if comments are stripped. -/
structure IsNormal (stripComments : Bool) (text : List Char) : Prop where
  /-- There is something to embed. -/
  ne_nil : text ≠ []
  /-- Nothing is trimmed. -/
  not_endsBlank : ¬ Text.EndsBlank text
  /-- Nothing is stripped. -/
  withoutComment_eq : withoutComment stripComments text = text

/-- What a line contributes is a start of the line in normal form. -/
theorem isNormal_of_contribution {stripComments : Bool} {line kept : List Char}
    (h : contribution stripComments line = some kept) :
    kept <+: line ∧ IsNormal stripComments kept := by
  obtain ⟨hne, rfl⟩ := contribution_eq_some_iff.mp h
  have hstart := Text.trimEnd_isPrefix (withoutComment stripComments line)
  exact ⟨hstart.trans (withoutComment_isPrefix stripComments line), hne,
    Text.not_endsBlank_trimEnd _, withoutComment_eq_self_of_isPrefix hstart⟩

/-- The texts that contribute themselves are those in normal form. -/
theorem contribution_eq_self_iff {stripComments : Bool} {text : List Char} :
    contribution stripComments text = some text ↔ IsNormal stripComments text := by
  constructor
  · exact fun h => (isNormal_of_contribution h).2
  · rintro ⟨hne, hlast, hwhole⟩
    refine contribution_eq_some_iff.mpr ⟨hne, ?_⟩
    rw [hwhole, Text.trimEnd_eq_self_iff.mpr hlast]

/-! ## What makes no difference -/

/-- Slashes behind a line start a comment where the character in front of them is neither a slash
nor a backslash. -/
theorem cutCommentAfter_append_marker (escaped : Bool) (line comment : List Char) {last : Char}
    (hslash : last ≠ '/') (hbackslash : last ≠ '\\') :
    cutCommentAfter escaped (line ++ last :: '/' :: '/' :: comment) =
      cutCommentAfter escaped (line ++ [last]) := by
  induction line generalizing escaped with
  | nil =>
    have hescape : (last == '\\') = false := beq_false_of_ne hbackslash
    simp [cutCommentAfter_cons, hslash, hescape, cutCommentAfter]
  | cons first line ih =>
    -- no marker forms across the seam
    have hhead : (line ++ last :: '/' :: '/' :: comment).head? = (line ++ [last]).head? := by
      cases line <;> rfl
    rw [List.cons_append, List.cons_append, cutCommentAfter_cons, cutCommentAfter_cons, hhead, ih]

/-- A comment behind a line is cut off with nothing else, unless the line ends in a slash or in a
backslash. -/
theorem cutComment_append_marker {line : List Char} (hslash : line.getLast? ≠ some '/')
    (hbackslash : line.getLast? ≠ some '\\') (comment : List Char) :
    cutComment (line ++ '/' :: '/' :: comment) = cutComment line := by
  rcases List.eq_nil_or_concat' line with rfl | ⟨front, last, rfl⟩
  · rfl
  · rw [List.getLast?_concat, ne_eq, Option.some.injEq] at hslash hbackslash
    rw [List.append_assoc, List.singleton_append]
    exact cutCommentAfter_append_marker false front comment hslash hbackslash

/-- What a line contributes is a start of it in normal form, which contributes itself. Neither blank
characters behind the line make a difference, terminators among them, nor taking them away before
its comment is stripped, nor a comment behind it that no character at its end keeps from being one.
A line contributes nothing exactly if what is left of it is blank. -/
theorem contribution_normalizes (stripComments : Bool) (line : List Char) :
    (∀ kept, contribution stripComments line = some kept →
        kept ≠ [] ∧ kept <+: line ∧ ¬ Text.EndsBlank kept ∧
          contribution stripComments kept = some kept) ∧
      (∀ blanks, (∀ c ∈ blanks, Text.isBlank c = true) →
        contribution stripComments (line ++ blanks) = contribution stripComments line) ∧
      (∀ terminator ∈ Text.terminators,
        contribution stripComments (line ++ terminator) = contribution stripComments line) ∧
      contribution true line = contribution true (Text.trimEnd line) ∧
      (line.getLast? ≠ some '/' → line.getLast? ≠ some '\\' → ∀ comment,
        contribution true (line ++ '/' :: '/' :: comment) = contribution true line) ∧
      (contribution stripComments line = none ↔
        ∀ c ∈ withoutComment stripComments line, Text.isBlank c = true) := by
  have hblank : ∀ {stripComments : Bool} {line blanks : List Char},
      (∀ c ∈ blanks, Text.isBlank c = true) →
        contribution stripComments (line ++ blanks) = contribution stripComments line :=
    fun h => contribution_append_of_blank h _ _
  refine ⟨?_, fun _ => hblank, ?_, ?_, ?_, ?_⟩
  · intro kept h
    obtain ⟨hstart, hnormal⟩ := isNormal_of_contribution h
    exact ⟨hnormal.ne_nil, hstart, hnormal.not_endsBlank, contribution_eq_self_iff.mpr hnormal⟩
  · intro terminator hterminator
    exact hblank fun c hc =>
      Text.isBlank_of_isLineEnd (Text.isLineEnd_of_mem_terminators hterminator c hc)
  · obtain ⟨blanks, hblanks, hline⟩ := Text.exists_eq_trimEnd_append line
    calc contribution true line
      _ = contribution true (Text.trimEnd line ++ blanks) := by rw [← hline]
      _ = contribution true (Text.trimEnd line) := hblank hblanks
  · intro hslash hbackslash comment
    have hcut := cutComment_append_marker hslash hbackslash comment
    rw [contribution, contribution, withoutComment, withoutComment, if_pos rfl, if_pos rfl, hcut]
  · rw [contribution_eq_none_iff, Text.trimEnd_eq_nil_iff]

/-- For example a line with an escaped marker and a blank character behind it. -/
theorem contribution_normalizes_escaped :
    let line := "x\\//y ".toList
    let kept := "x\\//y".toList
    (contribution true line = some kept ∧ contribution true kept = some kept) ∧
      ((∀ c ∈ ['\x1f', '\r', '\n'], Text.isBlank c = true) ∧
        contribution true (line ++ ['\x1f', '\r', '\n']) = some kept) ∧
      (['\r', '\n'] ∈ Text.terminators ∧ contribution true (line ++ ['\r', '\n']) = some kept) ∧
      line.getLast? ≠ some '/' ∧ line.getLast? ≠ some '\\' ∧
        contribution true (line ++ "// z".toList) = some kept := by
  intro line kept
  have hline : contribution true line = some kept := by decide
  have hblanks : ∀ c ∈ ['\x1f', '\r', '\n'], Text.isBlank c = true :=
    List.all_eq_true.mp (by decide)
  have hterminator : ['\r', '\n'] ∈ Text.terminators := by decide
  have hslash : line.getLast? ≠ some '/' := by decide
  have hbackslash : line.getLast? ≠ some '\\' := by decide
  obtain ⟨hself, hblank, hended, -, hmarker, -⟩ := contribution_normalizes true line
  obtain ⟨-, -, -, hkept⟩ := hself kept hline
  exact ⟨⟨hline, hkept⟩, ⟨hblanks, (hblank _ hblanks).trans hline⟩,
    ⟨hterminator, (hended _ hterminator).trans hline⟩, hslash, hbackslash,
    (hmarker hslash hbackslash " z".toList).trans hline⟩

end Line

end TextEmbed
