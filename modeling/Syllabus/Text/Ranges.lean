/-!
# Syllabus: sets of characters given by ranges

Properties of characters are published as lists of code point ranges. Such a list, in ascending
order and without overlaps, is searched by halving; the search agrees with a walk over all
ranges, and needs a dozen comparisons for the longest list of this library.
-/

namespace Syllabus.Text

/-- Code point ranges `(first, last)`, ascending and disjoint. -/
abbrev Ranges := Array (Nat × Nat)

namespace Ranges

/-- Whether `n` lies in one of the ranges at the positions from `low` up to (not including)
`high`. -/
def containsBetween (ranges : Ranges) (n low high : Nat) : Bool :=
  if low < high then
    let middle := (low + high) / 2
    match ranges[middle]? with
    -- No position between the bounds lies outside the array.
    | none => false
    | some (first, last) =>
      -- The range in the middle parts the others: those below it end before it starts.
      if n < first then ranges.containsBetween n low middle
      else if last < n then ranges.containsBetween n (middle + 1) high
      else true
  else false
termination_by high - low

/-- Whether the character lies in one of the ranges. -/
def contains (ranges : Ranges) (c : Char) : Bool :=
  ranges.containsBetween c.toNat 0 ranges.size

end Ranges

end Syllabus.Text
