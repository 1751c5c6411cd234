/-!
# Ranges of code points

A property of characters is kept as the closed ranges of the code points that
have it, in ascending order.
-/

namespace TreeWalk

/-- Closed ranges of code points. -/
abbrev CodeRanges := List (Nat × Nat)

namespace CodeRanges

/-- Whether a code point lies in one of the ranges. -/
def contains (ranges : CodeRanges) (code : Nat) : Bool :=
  ranges.any fun (first, last) => first ≤ code && code ≤ last

end CodeRanges
end TreeWalk
