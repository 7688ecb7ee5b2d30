import Blockwork.Geometry.Rect
import Blockwork.Json.Encoding
import Blockwork.Json.Number
import Blockwork.Web.Route

/-!
# Requests

A request has a method, a target, and a body of some content type.  A body counts
as JSON when its type says so and its bytes are JSON text.  The type may have spaces
and tabs around it.

Most routes read fields of the body.  A body that does not count as given, or that
is not JSON, has no fields.  A body that is given and is no object has fields
nobody can ask for, which is a breakdown.
-/

namespace Blockwork.Web

structure Request where
  /-- The name of the method. -/
  method : String
  target : String
  /-- The content type of the body. -/
  contentType : String := ""
  body : String := ""

namespace Request

/-- A text without the spaces and tabs at its ends. -/
def dropGaps (cs : List Char) : List Char :=
  let isGap (c : Char) : Bool := c = ' ' || c = '\t'
  ((cs.dropWhile isGap).reverse.dropWhile isGap).reverse

/-- Whether a content type is one of JSON. -/
def isJsonType (contentType : String) : Bool :=
  let name := (dropGaps (contentType.toList.takeWhile (· ≠ ';'))).map Char.toLower
  match Text.dropLiteral? "application/".toList name with
  | some subtype => subtype = "json".toList || "+json".toList.isSuffixOf subtype
  | none => false

/-- The value of a body that is JSON. -/
def json? (r : Request) : Option Json :=
  if isJsonType r.contentType then Json.parseBytes? r.body else none

/-- The body as fields are asked of it. -/
def payload (r : Request) : Json := (r.json?.bind Json.given?).getD (.obj [])

end Request

/-! ## Fields -/

/-- A field of a body. -/
def field? (payload : Json) (name : String) : Except Fault (Option Json) :=
  match payload with
  | .obj members => .ok (Json.member? members name)
  | _ => .error (.breakdown .missingOperation)

/-- A field of a body, null if there is none. -/
def field (payload : Json) (name : String) : Except Fault Json := do
  return (← field? payload name).getD .null

/-- A number, as a fault of a request if it is none. -/
def numeric {α : Type} (fault : RequestFault) (r : Except Breakdown α) : Except Fault α :=
  match r with
  | .ok a => .ok a
  | .error .wrongType | .error .badValue => .error (.request fault)
  | .error cause => .error (.breakdown cause)

/-- A coordinate in a field, the default if there is no such field. -/
def coordinate (payload : Json) (name : String) (default : Float) : Except Fault Float := do
  match ← field? payload name with
  | some v => numeric (.notNumeric name) v.toFloat
  | none => .ok default

/-- An index in a field. -/
def index (payload : Json) (name : String) : Except Fault Int := do
  numeric (.notNumeric name) (← field payload name).toInt

/-- A coordinate of a pointer. -/
def pointerField (payload : Json) (name : String) : Except Fault Float :=
  match payload with
  | .obj members =>
      match Json.member? members name with
      | some v => numeric .pointer v.toFloat
      | none => .error (.request .pointer)
  | _ => .error (.request .pointer)

/-- The pointer of a body. -/
def pointer (payload : Json) : Except Fault Point := do
  let x ← pointerField payload "x"
  let y ← pointerField payload "y"
  return ⟨x, y⟩

/-- Whether a body mentions a name: an object has it as a field, a list as an
item, and a text has it inside. -/
def mentions (payload : Json) (name : String) : Except Fault Bool :=
  match payload with
  | .obj members => .ok (Json.member? members name).isSome
  | .arr items => .ok (items.any fun
      | .str s => s == name
      | _ => false)
  | .str s => .ok (Text.occurs name.toList s.toList)
  | _ => .error (.breakdown .wrongType)

/-- The id that a value gives. -/
def blockId : Json → Except Fault BlockId
  | .str id => .ok id
  | v => .error (if v.isScalar then .naming v (.blockNotFound v) else .breakdown .wrongType)

end Blockwork.Web
