namespace InputResolution.Pattern

/-! How high the parts of a pattern are stacked.  An atom has no height, and
whatever is made of parts stands one higher than the highest of them. -/

def heightLimit : Nat := 250

def highest (heights : List Nat) : Nat :=
  heights.foldl max 0

/-- The height of parts in a row.  One part alone makes no row. -/
def rowHeight : List Nat → Nat
  | [] => 0
  | [height] => height
  | heights => highest heights + 1

end InputResolution.Pattern
