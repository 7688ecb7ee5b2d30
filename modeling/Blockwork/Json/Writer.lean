import Blockwork.Decimal.Shortest
import Blockwork.Json.Digits
import Blockwork.Text.Quoted

/-!
# Writing JSON text

Stored snapshots and answers are written on one line, with a blank behind every
comma and colon.  The text is ASCII: every other character is written as one or
two escapes of four hexadecimal digits.  Floats have the shortest digits that
read back, and the values without digits are the words `NaN`, `Infinity` and
`-Infinity`.

What a value with too long a whole number in it would be written as is never read: such a
value is not written (`isWritable`).
-/

namespace Blockwork.Json

open Blockwork.Text (hexDigits)
open Blockwork.Decimal (Layout decode)

/-- Floats in JSON text: positional from `10 ^ -4` up to `10 ^ 16`, otherwise an
exponent of at least two digits. -/
def floatLayout : Layout where
  least := -4
  most := 16
  exponentWidth := 2
  nan := "NaN"
  infinity := "Infinity"

/-- A code unit of a text as an escape. -/
def unitEscape (u : Nat) : List Char := '\\' :: 'u' :: hexDigits 4 u

/-- A character of a text. -/
def writeChar (c : Char) : List Char :=
  if c = Char.ofNat 0x22 || c = '\\' then ['\\', c]
  else if c = '\n' then ['\\', 'n']
  else if c = '\r' then ['\\', 'r']
  else if c = '\t' then ['\\', 't']
  else if c.toNat = 8 then ['\\', 'b']
  else if c.toNat = 12 then ['\\', 'f']
  else if 0x20 ≤ c.toNat && c.toNat < 0x7f then [c]
  else if c.toNat < 0x10000 then unitEscape c.toNat
  else
    let v := c.toNat - 0x10000
    unitEscape (0xd800 + v / 0x400) ++ unitEscape (0xdc00 + v % 0x400)

/-- A text between quotes. -/
def writeText (s : String) : String :=
  String.ofList (Char.ofNat 0x22 :: s.toList.flatMap writeChar ++ [Char.ofNat 0x22])

mutual

/-- The JSON text of a value. -/
def write : Json → String
  | .null => "null"
  | .bool b => if b then "true" else "false"
  | .int n => toString n
  | .float x => floatLayout.text (decode x)
  | .str s => writeText s
  | .arr items => "[" ++ writeItems items ++ "]"
  | .obj members => "\x7b" ++ writeMembers members ++ "\x7d"

/-- The JSON texts of items, with commas between them. -/
def writeItems : List Json → String
  | [] => ""
  | [v] => write v
  | v :: vs => write v ++ ", " ++ writeItems vs

/-- The JSON texts of members, with commas between them. -/
def writeMembers : List (String × Json) → String
  | [] => ""
  | [(n, v)] => writeText n ++ ": " ++ write v
  | (n, v) :: ms => writeText n ++ ": " ++ write v ++ ", " ++ writeMembers ms

end

end Blockwork.Json
