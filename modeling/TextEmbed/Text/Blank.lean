/-!
# Blank characters

The characters that vanish from the end of a line: Unicode white space and the four ASCII
separators.
-/

namespace TextEmbed.Text

/-- The Unicode property `White_Space`. -/
def isWhiteSpace (c : Char) : Bool :=
  ('\t' ≤ c && c ≤ '\r') || c == ' ' || c == '\u0085' || c == '\u00A0' || c == '\u1680'
    || ('\u2000' ≤ c && c ≤ '\u200A') || c == '\u2028' || c == '\u2029' || c == '\u202F'
    || c == '\u205F' || c == '\u3000'

/-- White space, and the file, group, record and unit separators. -/
def isBlank (c : Char) : Bool :=
  isWhiteSpace c || ('\x1c' ≤ c && c ≤ '\x1f')

/-- Line terminators are blank. -/
theorem isBlank_of_terminator {c : Char} (h : c = '\n' ∨ c = '\r') : isBlank c = true := by
  rcases h with rfl | rfl <;> decide

/-- A text without the blank characters at its end. -/
def trimEnd (text : List Char) : List Char :=
  (text.reverse.dropWhile isBlank).reverse

/-- Trimming leaves a start of the text. -/
theorem trimEnd_isPrefix (text : List Char) : trimEnd text <+: text := by
  have h := List.dropWhile_suffix isBlank (l := text.reverse)
  simpa [trimEnd] using List.reverse_prefix.mpr h

end TextEmbed.Text
