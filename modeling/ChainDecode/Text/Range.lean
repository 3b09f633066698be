/-! # Ranges of code points

A character property is kept as a list of closed ranges of code points in rising order.
-/
namespace ChainDecode.Text

abbrev CodeRange := Nat × Nat

def inRanges (ranges : List CodeRange) (code : Nat) : Bool :=
  ranges.any fun r => r.1 ≤ code && code ≤ r.2

end ChainDecode.Text
