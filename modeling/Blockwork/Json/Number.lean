import Blockwork.Breakdown
import Blockwork.Decimal.Numeral
import Blockwork.Json.Value

/-!
# Numbers from values

Coordinates and palette indices are given as JSON values.  Numbers stand for
themselves, true and false for one and zero, and a text for the numeral it
holds.  An index that is given with a fraction is cut toward zero.
-/

namespace Blockwork.Json

open Blockwork.Decimal (ofInt? readFloat? readInt? truncate? decode)

/-- The double a value stands for. -/
def toFloat : Json → Except Breakdown Float
  | .bool b => .ok (if b then 1.0 else 0.0)
  | .int n =>
      match ofInt? n with
      | some x => .ok x
      | none => .error .overflow
  | .float x => .ok x
  | .str s =>
      match readFloat? s with
      | some x => .ok x
      | none => .error .badValue
  | .null | .arr _ | .obj _ => .error .wrongType

/-- The integer a value stands for. -/
def toInt : Json → Except Breakdown Int
  | .bool b => .ok (if b then 1 else 0)
  | .int n => .ok n
  | .float x =>
      match decode x with
      | .nan => .error .badValue
      | .infinite _ => .error .overflow
      | .finite .. => .ok ((truncate? x).getD 0)
  | .str s =>
      match readInt? s with
      | some n => .ok n
      | none => .error .badValue
  | .null | .arr _ | .obj _ => .error .wrongType

end Blockwork.Json
