/-!
# Sets of code points

A class of characters is a list of closed intervals of code points in increasing
order.  `covers` decides membership and stops at the first interval that lies
above the code point, so the classes that ASCII text asks for are decided after
a few comparisons.
-/

namespace Blockwork.Unicode

/-- Whether a code point lies in one of the intervals, which are in increasing
order. -/
def covers : List (Nat × Nat) → Nat → Bool
  | [], _ => false
  | r :: rs, n => if n < r.1 then false else n ≤ r.2 || covers rs n

end Blockwork.Unicode
