import Blockwork.Json.Lexer

/-!
# Reading JSON text

`Json.parse?` reads one value and nothing behind it.  The reader takes the
tokens one by one and keeps a stack of the lists and objects that are still
open.  When a name comes a second time in an object, its value takes the place
of the first.
-/

namespace Blockwork.Json

/-- A list or an object that is still open. -/
inductive Frame
  /-- A list, the last item first. -/
  | items (done : List Json)
  /-- An object. -/
  | members (done : List (String × Json))
  /-- An object that waits for the value of a name. -/
  | valueOf (done : List (String × Json)) (name : String)

/-- What may come next. -/
inductive Expect
  | value
  /-- A first item, or the end of the list. -/
  | itemOrEnd
  | name
  /-- A first name, or the end of the object. -/
  | nameOrEnd
  /-- The mark behind a name. -/
  | colon
  /-- The mark behind an item or a member, or the end. -/
  | commaOrEnd
  /-- Nothing: the value is complete. -/
  | nothing (v : Json)

/-- The state of the reader. -/
structure Reading where
  /-- What may come next. -/
  expect : Expect
  /-- What is still open, the innermost first. -/
  opened : List Frame

/-- Put a complete value where it belongs. -/
def place (v : Json) : List Frame → Option Reading
  | [] => some ⟨.nothing v, []⟩
  | .items done :: rest => some ⟨.commaOrEnd, .items (v :: done) :: rest⟩
  | .valueOf done name :: rest => some ⟨.commaOrEnd, .members (Table.set done name v) :: rest⟩
  | .members _ :: _ => none

/-- Read a token where a value may come. -/
def readValue (t : Token) (opened : List Frame) : Option Reading :=
  match t with
  | .atom v => place v opened
  | .text s => place (.str s) opened
  | .openList => some ⟨.itemOrEnd, .items [] :: opened⟩
  | .openObject => some ⟨.nameOrEnd, .members [] :: opened⟩
  | _ => none

def readName (t : Token) (opened : List Frame) : Option Reading :=
  match t, opened with
  | .text s, .members done :: rest => some ⟨.colon, .valueOf done s :: rest⟩
  | _, _ => none

/-- Close the innermost list or object. -/
def closeFrame (t : Token) (opened : List Frame) : Option Reading :=
  match t, opened with
  | .closeList, .items done :: rest => place (.arr done.reverse) rest
  | .closeObject, .members done :: rest => place (.obj done) rest
  | _, _ => none

/-- Read one token. -/
def Reading.step (r : Reading) (t : Token) : Option Reading :=
  match r.expect with
  | .value => readValue t r.opened
  | .itemOrEnd =>
      match t with
      | .closeList => closeFrame t r.opened
      | _ => readValue t r.opened
  | .name => readName t r.opened
  | .nameOrEnd =>
      match t with
      | .closeObject => closeFrame t r.opened
      | _ => readName t r.opened
  | .colon =>
      match t with
      | .colon => some ⟨.value, r.opened⟩
      | _ => none
  | .commaOrEnd =>
      match t, r.opened with
      | .comma, .items _ :: _ => some ⟨.value, r.opened⟩
      | .comma, _ => some ⟨.name, r.opened⟩
      | _, _ => closeFrame t r.opened
  | .nothing _ => none

/-- Read all tokens. -/
def readTokens : Reading → List Token → Option Json
  | ⟨.nothing v, _⟩, [] => some v
  | _, [] => none
  | r, t :: ts =>
      match r.step t with
      | some r => readTokens r ts
      | none => none

/-- Read a JSON text. -/
def parse? (s : String) : Option Json := do
  readTokens ⟨.value, []⟩ (← tokensFrom? 0 s.toList)

end Blockwork.Json
