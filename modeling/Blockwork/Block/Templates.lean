import Blockwork.Breakdown
import Blockwork.Decimal.Binary
import Blockwork.Json.Display
import Blockwork.Json.Writer

/-!
# Templates

A block carries one template per language.  Templates come from outside, so a
language is any value that can be a key and a template any value at all, though
only texts can be generated from.  Numbers that are equal are one key, true and
false being one and zero, and a key that comes again keeps its place and its
first form and takes the new value.

Templates are read from an object, or from a list of pairs.  A pair is a list of
two values, a text of two characters, or an object of two members, of which the
names count.

The members of an object have names that are texts.  Where templates are shown as
an object, a `Naming` says what a language is called.
-/

namespace Blockwork

/-- Templates by language, in order. -/
structure Templates where
  /-- The languages with their templates. -/
  entries : List (Json × Json) := []

namespace Templates

/-- The whole number a key is equal to, for truth values and whole numbers. -/
def wholeKey? : Json → Option Int
  | .bool b => some (if b then 1 else 0)
  | .int n => some n
  | _ => none

/-- Whether two values are the same key. -/
def sameKey : Json → Json → Bool
  | .null, .null => true
  | .str s, .str t => s == t
  | .float x, .float y => x == y || (x.isNaN && y.isNaN)
  | .float x, v =>
      match wholeKey? v with
      | some n => Decimal.isInt x n
      | none => false
  | v, .float y =>
      match wholeKey? v with
      | some n => Decimal.isInt y n
      | none => false
  | v, w =>
      match wholeKey? v, wholeKey? w with
      | some m, some n => m == n
      | _, _ => false

/-- The template of a language. -/
def get? (t : Templates) (language : Json) : Option Json :=
  (t.entries.find? fun e => sameKey e.1 language).map Prod.snd

/-- Set a template in a list of entries. -/
def setEntry : List (Json × Json) → Json → Json → List (Json × Json)
  | [], key, v => [(key, v)]
  | (k, w) :: rest, key, v =>
      if sameKey k key then (k, v) :: rest else (k, w) :: setEntry rest key v

/-- Set the template of a language. -/
def insert (t : Templates) (key v : Json) : Templates := ⟨setEntry t.entries key v⟩

/-- The templates of the members of an object. -/
def ofMembers (members : List (String × Json)) : Templates :=
  ⟨members.map fun m => (.str m.1, m.2)⟩

/-- A pair of a language and a template. -/
def pairOf : Json → Except Breakdown (Json × Json)
  | .arr [k, v] => if k.isScalar then .ok (k, v) else .error .wrongType
  | .str s =>
      match s.toList with
      | [c, d] => .ok (.str (String.ofList [c]), .str (String.ofList [d]))
      | _ => .error .badValue
  | .obj [(m, _), (n, _)] => .ok (.str m, .str n)
  | .arr _ | .obj _ => .error .badValue
  | _ => .error .wrongType

/-- Add the templates of a list of pairs. -/
def addPairs (t : Templates) : List Json → Except Breakdown Templates
  | [] => .ok t
  | item :: items => do
      let (k, v) ← pairOf item
      addPairs (t.insert k v) items

/-- The templates a value stands for.  A value that does not count as given
stands for none. -/
def ofJson (v : Json) : Except Breakdown Templates :=
  if !v.isTruthy then .ok {}
  else
    match v with
    | .obj members => .ok (ofMembers members)
    | .arr items => addPairs {} items
    | .str _ => .error .badValue
    | _ => .error .wrongType

/-- How a language is named where the templates are an object. -/
abbrev Naming := Json → String

/-- The names of languages in JSON text.  A text is its own name. -/
def writtenName : Naming
  | .str s => s
  | v => v.write

/-- The templates as an object.  Languages of one name are members of one name. -/
def toJson (naming : Naming) (t : Templates) : Json :=
  .obj (t.entries.map fun e => (naming e.1, e.2))

/-- Whether all languages have names in JSON text. -/
def areNamed (t : Templates) : Bool := t.entries.all fun e => e.1.isWritable

/-- The templates without their languages. -/
def values (t : Templates) : List Json := t.entries.map Prod.snd

/-- The templates as texts, if all of them are. -/
def texts? (t : Templates) : Option (List String) :=
  t.values.mapM fun
    | .str s => some s
    | _ => none

/-- Whether all templates are texts. -/
def allTexts (t : Templates) : Bool := t.texts?.isSome

end Templates

end Blockwork
