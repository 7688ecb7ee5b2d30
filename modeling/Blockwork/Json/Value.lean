import Blockwork.Table

/-!
# JSON values

Payloads, snapshots and requests are JSON.  Whole numbers and numbers with a
fraction or exponent are told apart, since the editor shows `1` and `1.0`
differently, and objects keep the order of their members.  A reader never gives
an object two members of one name.

A value *counts as given* unless it is null, false, a zero, or empty
(`Json.isTruthy`).  Much of the editor treats a value that does not count as one
that was left out.
-/

namespace Blockwork

/-- A JSON value. -/
inductive Json
  /-- The null value. -/
  | null
  /-- A truth value. -/
  | bool (b : Bool)
  /-- A whole number. -/
  | int (n : Int)
  /-- A number with a fraction or an exponent. -/
  | float (x : Float)
  /-- A text. -/
  | str (s : String)
  /-- A list. -/
  | arr (items : List Json)
  /-- An object, its members in order. -/
  | obj (members : List (String × Json))
deriving Inhabited

namespace Json

/-- Whether a value counts as given: not null, false, zero or empty. -/
def isTruthy : Json → Bool
  | .null => false
  | .bool b => b
  | .int n => n != 0
  | .float x => !(x == 0.0)
  | .str s => s != ""
  | .arr items => !items.isEmpty
  | .obj members => !members.isEmpty

/-- The value, if it counts as given. -/
def given? (v : Json) : Option Json := if v.isTruthy then some v else none

/-- The first value if it counts as given, and otherwise the second. -/
def orElse (v w : Json) : Json := if v.isTruthy then v else w

/-- The member of an object by name. -/
def member? (members : List (String × Json)) (name : String) : Option Json :=
  members.lookup name

/-- The member of an object by name, null if there is none. -/
def member (members : List (String × Json)) (name : String) : Json :=
  (member? members name).getD .null

/-- The value of an optional text. -/
def ofText? : Option String → Json
  | some s => .str s
  | none => .null

/-- A value that can be a key: anything but a list or an object. -/
def isScalar : Json → Bool
  | .arr _ | .obj _ => false
  | _ => true

end Json

end Blockwork
