import Blockwork.Text.Pattern
import Blockwork.Unicode.Word

/-!
# Filling in placeholders

A template names an input by a percent sign and the name of the input.  The
placeholder is not one when another word character follows, so `%ab` is no
placeholder for `a`.  Every placeholder of a name is replaced by one value, and
the value is not read again.

A block that names no body placeholder fills in the three fallback names.
-/

namespace Blockwork.Code

open Blockwork.Text (Pattern dropLiteral? replaceMatches)
open Blockwork.Unicode (startsWithWord)

/-- How many characters a placeholder of a name takes at the start of a text, if
one stands there. -/
def placeholderAt? (name cs : List Char) : Option Nat :=
  match dropLiteral? ('%' :: name) cs with
  | some rest => if startsWithWord rest then none else some (name.length + 1)
  | none => none

/-- The pattern of the placeholders of a name. -/
def placeholder (name value : List Char) : Pattern := fun _ cs =>
  (placeholderAt? name cs).map fun n => (value, n)

/-- Replace every placeholder of a name by a value. -/
def substituteChars (template name value : List Char) : List Char :=
  replaceMatches (placeholder name value) template

/-- Replace every placeholder of a name by a value. -/
def substitute (template name value : String) : String :=
  String.ofList (substituteChars template.toList name.toList value.toList)

/-- The names that stand for the body in a block that names none. -/
def fallbackNames : List (List Char) :=
  [['b', 'o', 'd', 'y'], ['t', 'h', 'e', 'n'], ['e', 'l', 's', 'e']]

/-- The pattern of the fallback placeholders. -/
def fallback (value : List Char) : Pattern := fun _ cs =>
  (fallbackNames.findSome? (placeholderAt? · cs)).map fun n => (value, n)

/-- Replace every fallback placeholder by a value. -/
def substituteFallback (template value : String) : String :=
  String.ofList (replaceMatches (fallback value.toList) template.toList)

example : substituteChars ['%', 'a', '%', 'a', 'b'] ['a'] ['1'] = ['1', '%', 'a', 'b'] := by
  decide +kernel

end Blockwork.Code
