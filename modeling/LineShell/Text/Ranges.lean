/-!
Sets of code points given as ranges.
-/

namespace LineShell.Text

/-- Whether a code point lies in one of the ranges. The ranges stand in increasing order, so the
search ends at the first range that begins above the code point. -/
def inRanges (code : Nat) : List (Nat × Nat) → Bool
  | [] => false
  | (first, last) :: rest => first ≤ code && (code ≤ last || inRanges code rest)

end LineShell.Text
