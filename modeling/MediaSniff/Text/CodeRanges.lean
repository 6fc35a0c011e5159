/-
# MediaSniff.Text.CodeRanges — sets of characters as lists of ranges

The character classes of the Unicode standard are given as inclusive ranges of code
points.
-/
set_option autoImplicit false

namespace MediaSniff.Text

/-- A set of code points as inclusive ranges. -/
abbrev CodeRanges := List (Nat × Nat)

/-- Whether a character lies in one of the ranges. -/
def CodeRanges.covers (ranges : CodeRanges) (c : Char) : Bool :=
  ranges.any fun r => r.1 ≤ c.toNat && c.toNat ≤ r.2

end MediaSniff.Text
