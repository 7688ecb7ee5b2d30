import Blockwork.Decimal.Binary
import Blockwork.Unicode.Blank
import Blockwork.Unicode.Digit

/-!
# Numbers in text

A numeral that a user typed may have blanks around it, though not the information
separators `U+001C` to `U+001F`, a sign, digits of any script, and a single low
line between two digits.  A whole numeral is a sign and digits.  A decimal numeral
may have a fraction and an exponent, with a digit before or behind the point, or it
is one of the words `inf`, `infinity` and `nan` in any case.
-/

namespace Blockwork.Decimal

open Blockwork.Unicode (digitValue? isBlank)

/-- Whether a character may stand around a numeral. -/
def isMargin (c : Char) : Bool := isBlank c && !(0x1c ≤ c.toNat && c.toNat ≤ 0x1f)

/-- A text without what may stand around a numeral. -/
def dropMargins (cs : List Char) : List Char :=
  ((cs.dropWhile isMargin).reverse.dropWhile isMargin).reverse

/-- Digits after a first one, with single low lines between them, and the rest
of the text. -/
def moreDigits : List Char → List Nat × List Char
  | '_' :: c :: cs =>
      match digitValue? c with
      | some d => let (ds, rest) := moreDigits cs; (d :: ds, rest)
      | none => ([], '_' :: c :: cs)
  | c :: cs =>
      match digitValue? c with
      | some d => let (ds, rest) := moreDigits cs; (d :: ds, rest)
      | none => ([], c :: cs)
  | [] => ([], [])

/-- A run of digits, which may be empty, and the rest of the text. -/
def takeDigits : List Char → List Nat × List Char
  | c :: cs =>
      match digitValue? c with
      | some d => let (ds, rest) := moreDigits cs; (d :: ds, rest)
      | none => ([], c :: cs)
  | [] => ([], [])

/-- The number written by digits. -/
def ofDigits (ds : List Nat) : Nat := ds.foldl (fun n d => 10 * n + d) 0

/-- A sign, and the rest of the text. -/
def takeSign : List Char → Bool × List Char
  | '-' :: cs => (true, cs)
  | '+' :: cs => (false, cs)
  | cs => (false, cs)

/-- Whole numerals have at most this many digits. -/
def maxDigits : Nat := 4300

/-- Read a whole numeral. -/
def readInt? (s : String) : Option Int :=
  let (negative, cs) := takeSign (dropMargins s.toList)
  match takeDigits cs with
  | (d :: ds, []) =>
      if ds.length < maxDigits then
        let n := Int.ofNat (ofDigits (d :: ds))
        some (if negative then -n else n)
      else none
  | _ => none

/-- Read an exponent, up to the end of the text.  There may be none. -/
def readExponent? : List Char → Option Int
  | [] => some 0
  | c :: cs =>
      if c = 'e' || c = 'E' then
        let (negative, cs) := takeSign cs
        match takeDigits cs with
        | (d :: ds, []) =>
            let n := Int.ofNat (ofDigits (d :: ds))
            some (if negative then -n else n)
        | _ => none
      else none

/-- Read digits with a point and an exponent, up to the end of the text, as a
whole number and a power of ten. -/
def readDecimal? (cs : List Char) : Option (Nat × Int) :=
  let (whole, cs) := takeDigits cs
  let (fraction, cs) := match cs with
    | '.' :: cs => takeDigits cs
    | cs => ([], cs)
  if whole.isEmpty && fraction.isEmpty then none
  else
    (readExponent? cs).map fun x =>
      (ofDigits (whole ++ fraction), x - Int.ofNat fraction.length)

/-- Read a decimal numeral. -/
def readFloat? (s : String) : Option Float :=
  let (negative, cs) := takeSign (dropMargins s.toList)
  let word := cs.map Char.toLower
  if word = ['i', 'n', 'f'] || word = ['i', 'n', 'f', 'i', 'n', 'i', 't', 'y'] then
    some (Float.ofBits (UInt64.ofNat (infiniteBits + if negative then twoTo 63 else 0)))
  else if word = ['n', 'a', 'n'] then
    some (Float.ofBits (UInt64.ofNat (infiniteBits + twoTo 51)))
  else (readDecimal? cs).map fun (m, x) => ofDecimal negative m x

example : readDecimal? ['1', '_', '0', '.', '5', 'e', '-', '3'] = some (105, -4) := by decide
example : readDecimal? ['1', '_', '.', '5'] = none ∧ readDecimal? ['.'] = none := by decide

end Blockwork.Decimal
