/-!
# Sets of code points

A character property that cannot be computed is a table: ranges of code points in rising order,
looked up by halving.
-/

namespace ServiceMap.Text

/-- Disjoint ranges of code points, both ends included, in rising order. -/
structure CodeRanges where
  ranges : Array (Nat × Nat)
deriving Repr

namespace CodeRanges

/-- The range that holds `n`, looked for among the positions `low ≤ i < high`. -/
def findBetween? (set : CodeRanges) (n low high : Nat) : Option (Nat × Nat) :=
  if low < high then
    let middle := (low + high) / 2
    match set.ranges[middle]? with
    | none => none
    | some (first, last) =>
      if n < first then set.findBetween? n low middle
      else if last < n then set.findBetween? n (middle + 1) high
      else some (first, last)
  else none
termination_by high - low

/-- The range that holds `n`. -/
def find? (set : CodeRanges) (n : Nat) : Option (Nat × Nat) :=
  set.findBetween? n 0 set.ranges.size

/-- Whether `n` lies in one of the ranges. -/
def contains (set : CodeRanges) (n : Nat) : Bool :=
  (set.find? n).isSome

end CodeRanges

end ServiceMap.Text
