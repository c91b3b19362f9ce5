/-!
# Ranges of code points

A property of characters that a standard lists is kept as a list of ranges, each from its
first to its last code point.
-/

namespace PortalSearch.Text

/-- Whether one of the ranges holds the code point. -/
def inRanges (ranges : List (Nat × Nat)) (n : Nat) : Bool :=
  ranges.any fun r => r.1 ≤ n && n ≤ r.2

end PortalSearch.Text
