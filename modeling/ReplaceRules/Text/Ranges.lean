/-!
# Character classes given by ranges

A property of characters that a standard lists code point by code point is kept as an increasing list of ranges, both ends
included. `inRanges` decides membership; everything else in the text modules is such a list and a test on it.
-/

namespace ReplaceRules

/-- Whether a code point lies in one of the ranges of an increasing list: the search ends at the first range that starts
above it. -/
def inRanges : List (Nat × Nat) → Nat → Bool
  | [], _ => false
  | (first, last) :: later, n => if n < first then false else n ≤ last || inRanges later n

end ReplaceRules
