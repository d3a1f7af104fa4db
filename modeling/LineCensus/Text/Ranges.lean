/-!
Sets of code points as closed ranges in increasing order.
-/

namespace LineCensus.Text

/-- Whether a code lies in one of the ranges from index `low` up to `high`, which are in increasing
order: half of them are ruled out at each step. -/
def inRanges (ranges : Array (Nat × Nat)) (code low high : Nat) : Bool :=
  if low < high then
    let middle := (low + high) / 2
    let (first, last) := ranges.getD middle (0, 0)
    if code < first then inRanges ranges code low middle
    else if last < code then inRanges ranges code (middle + 1) high
    else true
  else false
termination_by high - low

def memRanges (ranges : Array (Nat × Nat)) (c : Char) : Bool :=
  inRanges ranges c.toNat 0 ranges.size

end LineCensus.Text
