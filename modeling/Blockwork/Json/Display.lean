import Blockwork.Decimal.Shortest
import Blockwork.Json.Digits
import Blockwork.Text.Quoted

/-!
# The text of a value

When a value is typed into a slot, becomes a label or is named in a message, it
is shown as text.  A text shows as itself.  Inside a list or an object, and
where a message quotes the value, a text is quoted (`Text.quoted`).  The words
for null, true and false are `None`, `True` and `False`, lists and objects have
their brackets and a blank behind every comma and colon, and a float always has
a point, an exponent or a word.

A value with too long a whole number in it has no text (`isWritable`).  `display` and
`inspect` do not look at that: whoever needs the text of a value demands first that there
is one.
-/

namespace Blockwork.Json

open Blockwork.Text (quoted)
open Blockwork.Decimal (Layout decode)

/-- Floats as text: positional from `10 ^ -4` up to `10 ^ 16`, otherwise an
exponent of at least two digits. -/
def floatText : Layout where
  least := -4
  most := 16
  exponentWidth := 2
  nan := "nan"
  infinity := "inf"

mutual

/-- The text of a value where texts are quoted. -/
def inspect : Json → String
  | .null => "None"
  | .bool b => if b then "True" else "False"
  | .int n => toString n
  | .float x => floatText.text (decode x)
  | .str s => quoted s
  | .arr items => "[" ++ inspectItems items ++ "]"
  | .obj members => "\x7b" ++ inspectMembers members ++ "\x7d"

/-- The texts of items, with commas between them. -/
def inspectItems : List Json → String
  | [] => ""
  | [v] => inspect v
  | v :: vs => inspect v ++ ", " ++ inspectItems vs

/-- The texts of members, with commas between them. -/
def inspectMembers : List (String × Json) → String
  | [] => ""
  | [(n, v)] => quoted n ++ ": " ++ inspect v
  | (n, v) :: ms => quoted n ++ ": " ++ inspect v ++ ", " ++ inspectMembers ms

end

/-- The text of a value.  A text is itself. -/
def display : Json → String
  | .str s => s
  | v => inspect v

@[simp] theorem display_str (s : String) : display (.str s) = s := rfl

end Blockwork.Json
