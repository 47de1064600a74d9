/-!
# Ranges of code points

Properties of characters outside ASCII are given as lists of inclusive ranges of code points, in ascending order.
-/

namespace SqlCompose.Text

def inRanges (ranges : List (Nat × Nat)) (code : Nat) : Bool :=
  ranges.any fun range => range.1 ≤ code && code ≤ range.2

end SqlCompose.Text
