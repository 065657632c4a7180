/-! Sets of code points given by ranges. -/

namespace ApiSurface.Unicode

/-- A code point lies in one of the ranges. -/
def inRanges (ranges : Array (Nat × Nat)) (code : Nat) : Bool :=
  ranges.any fun range => range.1 ≤ code && code ≤ range.2

end ApiSurface.Unicode
