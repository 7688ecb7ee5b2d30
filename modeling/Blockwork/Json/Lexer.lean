import Blockwork.Decimal.Numeral
import Blockwork.Json.Value
import Blockwork.Text.Pattern

/-!
# The tokens of JSON text

JSON text is cut into punctuation, texts, numbers and words.  Blanks between
tokens are the space, the tab, the line feed and the carriage return.  Beside
the numbers of the standard the words `NaN`, `Infinity` and `-Infinity` are
numbers too.  A text may hold any character but a control character and the two
that need a backslash.  Two escapes in a row that form a surrogate pair are one
character, and a lone surrogate is replaced.  Whole numbers have at most
`Decimal.maxDigits` digits.

The lexer is structurally recursive.  A token of several characters leaves a
count of the characters to skip.
-/

namespace Blockwork.Json

open Blockwork.Decimal (ofDecimal ofDigits maxDigits)
open Blockwork.Text (dropLiteral?)

/-- A token of JSON text. -/
inductive Token
  /-- The mark that opens an object. -/
  | openObject
  /-- The mark that closes an object. -/
  | closeObject
  /-- The mark that opens a list. -/
  | openList
  /-- The mark that closes a list. -/
  | closeList
  /-- The mark between two members or items. -/
  | comma
  /-- The mark between a name and its value. -/
  | colon
  | text (s : String)
  /-- A number or a word. -/
  | atom (v : Json)

/-! ## Numbers -/

/-- The value of an ASCII digit. -/
def asciiDigit? (c : Char) : Option Nat := if c.isDigit then some (c.toNat - '0'.toNat) else none

/-- The ASCII digits at the start of a text, and the rest. -/
def takeAscii : List Char → List Nat × List Char
  | [] => ([], [])
  | c :: cs =>
      match asciiDigit? c with
      | some d => let (ds, rest) := takeAscii cs; (d :: ds, rest)
      | none => ([], c :: cs)

/-- The whole part of a number: a zero alone, or digits that start with none. -/
def wholePart? (cs : List Char) : Option (List Nat × List Char) :=
  match takeAscii cs with
  | ([], _) => none
  | (0 :: _ :: _, _) => none
  | r => some r

/-- The fraction of a number.  There may be none. -/
def fractionPart? : List Char → Option (Option (List Nat) × List Char)
  | '.' :: cs =>
      match takeAscii cs with
      | ([], _) => none
      | (ds, rest) => some (some ds, rest)
  | cs => some (none, cs)

/-- The exponent of a number, which ends it.  There may be none. -/
def exponentPart? : List Char → Option (Option Int)
  | [] => some none
  | c :: cs =>
      if c = 'e' || c = 'E' then
        let (negative, cs) := Decimal.takeSign cs
        match takeAscii cs with
        | (d :: ds, []) =>
            let n := Int.ofNat (ofDigits (d :: ds))
            some (some (if negative then -n else n))
        | _ => none
      else none

/-- The value of a number.  With a fraction or an exponent it is a double. -/
def number? (cs : List Char) : Option Json := do
  let (negative, cs) := match cs with
    | '-' :: cs => (true, cs)
    | cs => (false, cs)
  let (whole, cs) ← wholePart? cs
  let (fraction, cs) ← fractionPart? cs
  let exponent ← exponentPart? cs
  match fraction, exponent with
  | none, none =>
      if whole.length ≤ maxDigits then
        let n := Int.ofNat (ofDigits whole)
        some (.int (if negative then -n else n))
      else none
  | _, _ =>
      let fraction := fraction.getD []
      some (.float (ofDecimal negative (ofDigits (whole ++ fraction))
        (exponent.getD 0 - Int.ofNat fraction.length)))

/-- The characters that numbers are made of. -/
def isNumeric (c : Char) : Bool :=
  c.isDigit || c = '-' || c = '+' || c = '.' || c = 'e' || c = 'E'

/-- The words, with their values. -/
def words : List (List Char × Json) := [
    (['t', 'r', 'u', 'e'], .bool true),
    (['f', 'a', 'l', 's', 'e'], .bool false),
    (['n', 'u', 'l', 'l'], .null),
    (['N', 'a', 'N'], .float (Float.ofBits 0x7ff8000000000000)),
    (['I', 'n', 'f', 'i', 'n', 'i', 't', 'y'], .float (Float.ofBits 0x7ff0000000000000)),
    (['-', 'I', 'n', 'f', 'i', 'n', 'i', 't', 'y'], .float (Float.ofBits 0xfff0000000000000))]

/-! ## Texts -/

/-- The value of a hexadecimal digit. -/
def hexDigit? (c : Char) : Option Nat :=
  if c.isDigit then some (c.toNat - '0'.toNat)
  else if 'a' ≤ c && c ≤ 'f' then some (c.toNat - 'a'.toNat + 10)
  else if 'A' ≤ c && c ≤ 'F' then some (c.toNat - 'A'.toNat + 10)
  else none

/-- The number of four hexadecimal digits. -/
def hexUnit? (a b c d : Char) : Option Nat := do
  some ((((← hexDigit? a) * 16 + (← hexDigit? b)) * 16 + (← hexDigit? c)) * 16 + (← hexDigit? d))

/-- What a character after a backslash stands for. -/
def simpleEscape? (c : Char) : Option Nat :=
  if c = Char.ofNat 0x22 || c = '\\' || c = '/' then some c.toNat
  else if c = 'b' then some 8
  else if c = 'f' then some 12
  else if c = 'n' then some 10
  else if c = 'r' then some 13
  else if c = 't' then some 9
  else none

/-- The code units of a text up to its closing quote, and the number of
characters read with that quote. -/
def textUnits? : List Char → Option (List Nat × Nat)
  | [] => none
  | '\\' :: 'u' :: a :: b :: c :: d :: cs =>
      match hexUnit? a b c d with
      | none => none
      | some u => (textUnits? cs).map fun (us, n) => (u :: us, n + 6)
  | '\\' :: e :: cs =>
      match simpleEscape? e with
      | none => none
      | some u => (textUnits? cs).map fun (us, n) => (u :: us, n + 2)
  | c :: cs =>
      if c = Char.ofNat 0x22 then some ([], 1)
      else if c.toNat < 0x20 then none
      else (textUnits? cs).map fun (us, n) => (c.toNat :: us, n + 1)

/-- Whether a code unit is the first of a surrogate pair. -/
def isHigh (u : Nat) : Bool := 0xd800 ≤ u && u < 0xdc00

/-- Whether a code unit is the second of a surrogate pair. -/
def isLow (u : Nat) : Bool := 0xdc00 ≤ u && u < 0xe000

/-- The characters of code units.  A surrogate pair is one character.  A lone surrogate
is none, and the replacement character stands in for it, so names in an object that
differ in nothing but lone surrogates are taken for one name. -/
def joinUnits : List Nat → List Char
  | [] => []
  | u :: v :: us =>
      if isHigh u && isLow v then
        Char.ofNat (0x10000 + (u - 0xd800) * 0x400 + (v - 0xdc00)) :: joinUnits us
      else (if isHigh u || isLow u then Char.ofNat 0xfffd else Char.ofNat u) :: joinUnits (v :: us)
  | [u] => [if isHigh u || isLow u then Char.ofNat 0xfffd else Char.ofNat u]

/-! ## The lexer -/

/-- Whether a character may stand between tokens. -/
def isGap (c : Char) : Bool := c = ' ' || c = '\t' || c = '\n' || c = '\r'

/-- A token of one character. -/
def mark? (c : Char) : Option Token :=
  if c = Char.ofNat 0x7b then some .openObject
  else if c = Char.ofNat 0x7d then some .closeObject
  else if c = '[' then some .openList
  else if c = ']' then some .closeList
  else if c = ',' then some .comma
  else if c = ':' then some .colon
  else none

/-- The token at the start of a text that does not start with a gap, and how
many characters it takes. -/
def nextToken? (c : Char) (cs : List Char) : Option (Token × Nat) :=
  match mark? c with
  | some t => some (t, 1)
  | none =>
      if c = Char.ofNat 0x22 then
        (textUnits? cs).map fun (us, n) => (.text (String.ofList (joinUnits us)), n + 1)
      else
        match words.find? fun w => (dropLiteral? w.1 (c :: cs)).isSome with
        | some (w, v) => some (.atom v, w.length)
        | none =>
            let run := (c :: cs).takeWhile isNumeric
            (number? run).map fun v => (.atom v, run.length)

/-- The tokens of a text, after skipping some characters. -/
def tokensFrom? : Nat → List Char → Option (List Token)
  | _, [] => some []
  | k + 1, _ :: cs => tokensFrom? k cs
  | 0, c :: cs =>
      if isGap c then tokensFrom? 0 cs
      else
        match nextToken? c cs with
        | some (t, n) => (tokensFrom? (n - 1) cs).map (t :: ·)
        | none => none

end Blockwork.Json
