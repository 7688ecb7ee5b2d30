import Blockwork.Unicode.Printable

/-!
# Quoted text

A text inside a value or an error message is shown between quotes.  The quotes
are single, unless the text has a single quote and no double quote.  The
backslash and the quote in use are written with a backslash, line feed, carriage
return and tab as `\n`, `\r` and `\t`, and every other character that is not
printable by its number: two hexadecimal digits after `\x`, four after `\u` or
eight after `\U`.
-/

namespace Blockwork.Text

open Blockwork.Unicode (isPrintable)

def singleQuote : Char := '\x27'

def doubleQuote : Char := '\x22'

/-- A number in lower-case hexadecimal digits, padded with zeros. -/
def hexDigits (width n : Nat) : List Char :=
  let ds := Nat.toDigits 16 n
  List.replicate (width - ds.length) '0' ++ ds

/-- How one character is written between quotes `q`. -/
def quoteChar (q : Char) (c : Char) : List Char :=
  if c = q || c = '\\' then ['\\', c]
  else if c = '\n' then ['\\', 'n']
  else if c = '\r' then ['\\', 'r']
  else if c = '\t' then ['\\', 't']
  else if isPrintable c then [c]
  else if c.toNat < 0x100 then '\\' :: 'x' :: hexDigits 2 c.toNat
  else if c.toNat < 0x10000 then '\\' :: 'u' :: hexDigits 4 c.toNat
  else '\\' :: 'U' :: hexDigits 8 c.toNat

/-- The quote a text is written between. -/
def quoteFor (cs : List Char) : Char :=
  if cs.contains singleQuote && !cs.contains doubleQuote then doubleQuote else singleQuote

/-- A text between quotes. -/
def quoted (s : String) : String :=
  let q := quoteFor s.toList
  String.ofList (q :: s.toList.flatMap (quoteChar q) ++ [q])

example : quoteFor ['a'] = singleQuote ∧ quoteFor [singleQuote] = doubleQuote
    ∧ quoteFor [singleQuote, doubleQuote] = singleQuote := by decide

end Blockwork.Text
