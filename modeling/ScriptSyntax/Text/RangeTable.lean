/-! Sets of characters given by sorted ranges of code points, with membership
found by bisection. -/
namespace ScriptSyntax

/-- Inclusive ranges of code points in increasing order, none overlapping. -/
structure RangeTable where
  ranges : Array (Nat × Nat)

namespace RangeTable

/-- Bisect the ranges at positions `low` up to `high`. Each step at least drops
the middle range, so as many steps as there are ranges are enough. -/
def search (table : RangeTable) (code : Nat) : Nat → Nat → Nat → Bool
  | 0, _, _ => false
  | steps + 1, low, high =>
    let middle := (low + high) / 2
    match table.ranges[middle]? with
    | none => false
    | some (first, last) =>
      if high ≤ low then false
      else if code < first then table.search code steps low middle
      else if last < code then table.search code steps (middle + 1) high
      else true

/-- Whether one of the ranges holds the character. -/
def contains (table : RangeTable) (c : Char) : Bool :=
  table.search c.toNat table.ranges.size 0 table.ranges.size

end RangeTable

end ScriptSyntax
