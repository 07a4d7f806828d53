import TextEmbed.Line.Comment
import TextEmbed.Text.Blank

/-!
# Contributions of lines

What a line contributes to a declaration: the line without its comment, if comments are stripped,
and without the blank characters at its end. The terminator of a line is blank, so it goes as well.
A line of which nothing is left contributes nothing.
-/

namespace TextEmbed.Line

/-- The line without its comment, if `stripComments` says so. -/
def withoutComment (stripComments : Bool) (line : List Char) : List Char :=
  if stripComments then cutComment line else line

/-- The part of a line that is embedded, `none` if it is empty. -/
def contribution (stripComments : Bool) (line : List Char) : Option (List Char) :=
  match Text.trimEnd (withoutComment stripComments line) with
  | [] => none
  | c :: rest => some (c :: rest)

/-- What is kept of a line is what is left of it, if that is not empty. -/
theorem contribution_eq_some_iff {stripComments : Bool} {line kept : List Char} :
    contribution stripComments line = some kept ↔
      kept ≠ [] ∧ Text.trimEnd (withoutComment stripComments line) = kept := by
  unfold contribution
  split <;> rename_i h
  · simp only [h, reduceCtorEq, false_iff, not_and]
    exact fun hne heq => hne heq.symm
  · constructor
    · rintro ⟨⟩
      simp [h]
    · rintro ⟨-, heq⟩
      rw [← heq, h]

/-- Nothing is kept of a line exactly if nothing is left of it. -/
theorem contribution_eq_none_iff {stripComments : Bool} {line : List Char} :
    contribution stripComments line = none ↔
      Text.trimEnd (withoutComment stripComments line) = [] := by
  unfold contribution
  split <;> simp_all

end TextEmbed.Line
