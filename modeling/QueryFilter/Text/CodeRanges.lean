/-!
# Sets of characters as ranges of code points

A property of characters is a list of closed ranges `(first, last)`.
-/

namespace QueryFilter.Text

/-- Closed ranges of code points in increasing order. -/
abbrev CodeRanges := List (Nat × Nat)

def CodeRanges.has (ranges : CodeRanges) (c : Char) : Bool :=
  ranges.any fun range => range.1 ≤ c.toNat && c.toNat ≤ range.2

end QueryFilter.Text
