import Blockwork.Block.Templates

/-!
# Target languages

A language is indented when the nesting of its code is a matter of indentation.
Every level then starts its lines with one more unit, and a unit that is no text is
a breakdown.  A language that is not in the table is not indented.

Languages are the keys of templates, so a name is any value that can be a key, and
names that are the same key name one language.
-/

namespace Blockwork.Code

/-- How a language nests code. -/
structure Language where
  name : Json
  /-- Whether nested code is indented. -/
  indented : Bool := false
  /-- The indentation of one level. -/
  unit : Json := .str "    "

/-- The languages to start with. -/
def standardLanguages : List Language :=
  [{ name := .str "javascript" }, { name := .str "python", indented := true }, { name := .str "c" }]

/-- The language of templates that are used when there is no other. -/
def standardLanguage : String := "javascript"

namespace Language

/-- Add a language to a table.  One of the same name is replaced where it stands,
and the name keeps its first form. -/
def addTo (table : List Language) (l : Language) : List Language :=
  match table with
  | [] => [l]
  | m :: rest =>
      if Templates.sameKey m.name l.name then { l with name := m.name } :: rest
      else m :: addTo rest l

/-- The table of a list of languages. -/
def table (ls : List Language) : List Language := ls.foldl addTo []

/-- The language that a value names.  A list or an object names nothing and cannot
be looked up. -/
def find (table : List Language) (name : Json) : Except Breakdown Language :=
  if name.isScalar then .ok ((table.find? (Templates.sameKey ·.name name)).getD { name })
  else .error .wrongType

/-- The indentation of code nested one level below another. -/
def deeper (l : Language) (indent : String) : Except Breakdown String :=
  if l.indented then
    match l.unit with
    | .str unit => .ok (indent ++ unit)
    | _ => .error .wrongType
  else .ok indent

end Language

end Blockwork.Code
