import Blockwork.Decimal.Numeral
import Blockwork.Json.Value

/-!
# Long whole numbers

A whole number may be of any size, but one with more than `Decimal.maxDigits` digits is
never written down: not in JSON text, not in a text that shows a value, and not in a
message.  Neither is a value that has such a number in it.
-/

namespace Blockwork.Json

open Blockwork.Decimal (digitCount maxDigits)

mutual

/-- Whether all whole numbers in a value are short enough to be written. -/
def isWritable : Json → Bool
  | .int n => digitCount n.natAbs ≤ maxDigits
  | .arr items => areWritable items
  | .obj members => haveWritable members
  | _ => true

/-- Whether all items can be written. -/
def areWritable : List Json → Bool
  | [] => true
  | v :: vs => isWritable v && areWritable vs

/-- Whether the values of all members can be written. -/
def haveWritable : List (String × Json) → Bool
  | [] => true
  | (_, v) :: ms => isWritable v && haveWritable ms

end

end Blockwork.Json
