/-!
# Sets of code points as ranges

A Unicode property is a set of code points, written as the list of its maximal
ranges in ascending order. Membership walks the list and stops at the first range
that ends at or after the code point.
-/

namespace LoxTools

/-- A set of code points: ascending ranges, both ends included. -/
abbrev CodeRanges := List (Nat × Nat)

/-- **Membership** in an ascending list of ranges. -/
def CodeRanges.contains : CodeRanges → Nat → Bool
  | [], _ => false
  | (first, last) :: rest, n =>
    if n ≤ last then first ≤ n else contains rest n

end LoxTools
