/-!
# Line comments

A line comment starts at the first `//` that doesn't stand right behind a backslash. The search
knows nothing of string or character literals.
-/

namespace TextEmbed.Line

/-- What stands before the first comment of a text, `escaped` telling whether the character right
before the text is a backslash. -/
def cutCommentAfter (escaped : Bool) : List Char → List Char
  | [] => []
  | c :: rest =>
    if !escaped && c == '/' && rest.head? == some '/' then []
    else c :: cutCommentAfter (c == '\\') rest

/-- What stands before the first comment of a line. -/
def cutComment (line : List Char) : List Char :=
  cutCommentAfter false line

/-- The second and the third slash form a marker that no backslash stands in front of. -/
example : cutComment "a\\///b".toList = "a\\/".toList := by decide

/-- Cutting leaves a start of the text, whatever stands in front of it. -/
theorem cutCommentAfter_isPrefix (escaped : Bool) (line : List Char) :
    cutCommentAfter escaped line <+: line := by
  induction line generalizing escaped with
  | nil => simp [cutCommentAfter]
  | cons c rest ih =>
    rw [cutCommentAfter]
    split
    · exact List.nil_prefix
    · exact List.cons_prefix_cons.mpr ⟨rfl, ih _⟩

/-- Cutting a comment leaves a start of the line. -/
theorem cutComment_isPrefix (line : List Char) : cutComment line <+: line :=
  cutCommentAfter_isPrefix false line

end TextEmbed.Line
