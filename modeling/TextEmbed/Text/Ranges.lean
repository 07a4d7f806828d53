/-!
# Ranges of characters

A set of characters as ascending ranges of code points, the form in which the tables of Unicode
properties are kept.
-/

namespace TextEmbed.Text

/-- Ranges of code points, first and last ones included. -/
abbrev Ranges := List (Nat × Nat)

namespace Ranges

/-- Whether a character lies in one of the ranges. -/
def contains (ranges : Ranges) (c : Char) : Bool :=
  ranges.any fun (first, last) => first ≤ c.toNat && c.toNat ≤ last

end Ranges

end TextEmbed.Text
