import Blockwork.Json.Lexer
import Blockwork.Text.Quoted
import Blockwork.Text.Utf8

/-!
# Addresses of requests

The target of a request is a path and a query with a question mark between them.  A
hash sign and what follows it do not count, nor do tabs and line breaks, nor control
characters and spaces at the start.  In front of the path a scheme may stand with a
colon behind it, and the name of a host behind two slashes.  Both are dropped, twice
over: what is left of a target is a target again.  The path that is left then loses
the control characters and spaces at its start once more.  The first scheme tells
whether the target is that of a socket.

Both parts are percent-encoded.  A percent sign and two hexadecimal digits are a
byte, any other character is the bytes of its UTF-8 form, and the bytes are read
as UTF-8.  Bytes that are not UTF-8 become the replacement character in a path.
In a query they stay encoded.  A percent sign without two digits is itself.

A path is decoded before it is cut at its slashes, so an encoded slash cuts too.
The slashes it starts with do not count.
A query is cut at its ampersands and at the first equals sign of each piece before
it is decoded, and a plus sign is a space.
-/

namespace Blockwork.Web

open Blockwork.Json (hexDigit?)
open Blockwork.Text (utf8Bytes utf8Chars)

/-! ## Percent encoding -/

/-- The value of two hexadecimal digits. -/
def hexByte? (c d : Char) : Option Nat := do
  some ((← hexDigit? c) * 16 + (← hexDigit? d))

/-- The bytes of a percent-encoded text, after skipping some characters. -/
def percentBytes : Nat → List Char → List Nat
  | _, [] => []
  | k + 1, _ :: cs => percentBytes k cs
  | 0, '%' :: c :: d :: cs =>
      match hexByte? c d with
      | some b => b :: percentBytes 2 (c :: d :: cs)
      | none => 0x25 :: percentBytes 0 (c :: d :: cs)
  | 0, c :: cs => utf8Bytes [c] ++ percentBytes 0 cs

/-- The replacement character, in place of bytes that are no character. -/
def replaceStray (_ : List Nat) : List Char := [Char.ofNat 0xfffd]

/-- Bytes that are no character, in percent encoding. -/
def keepStray (bytes : List Nat) : List Char :=
  bytes.flatMap fun b => '%' :: (Text.hexDigits 2 b).map Char.toUpper

/-- The text of a percent-encoded text. -/
def percentDecode (stray : List Nat → List Char) (cs : List Char) : List Char :=
  utf8Chars stray none (percentBytes 0 cs)

/-! ## Paths and queries -/

/-- Cut a text at every separator. -/
def cutAt (separator : Char) : List Char → List (List Char)
  | [] => [[]]
  | c :: cs =>
      if c = separator then [] :: cutAt separator cs
      else
        match cutAt separator cs with
        | piece :: pieces => (c :: piece) :: pieces
        | [] => [[c]]

/-- What is before the first separator, and what is behind it. -/
def cutOnce (separator : Char) (cs : List Char) : List Char × List Char :=
  (cs.takeWhile (· ≠ separator), (cs.dropWhile (· ≠ separator)).drop 1)

/-- The decoded text of a piece of a query. -/
def queryText (cs : List Char) : String :=
  String.ofList (percentDecode keepStray (cs.map fun c => if c = '+' then ' ' else c))

/-- The names and values of a query. -/
def queryPairs (cs : List Char) : List (String × String) :=
  ((cutAt '&' cs).filter (!·.isEmpty)).map fun piece =>
    let (name, value) := cutOnce '=' piece
    (queryText name, queryText value)

/-- The path and the query of a request. -/
structure Address where
  /-- The decoded path, without the slashes it starts with. -/
  path : List Char
  /-- The names and values of the query. -/
  query : List (String × String) := []
  /-- Whether the scheme is that of a socket. -/
  socket : Bool := false

namespace Address

/-- Whether a character may stand in a scheme. -/
def isSchemeChar (c : Char) : Bool := c.isAlphanum || c = '+' || c = '-' || c = '.'

/-- Whether a text is a scheme. -/
def isScheme : List Char → Bool
  | [] => false
  | c :: cs => c.isAlpha && cs.all isSchemeChar

/-- The scheme of a target, which may be empty, and the rest. -/
def takeScheme (cs : List Char) : List Char × List Char :=
  let (scheme, rest) := cutOnce ':' cs
  if cs.contains ':' && isScheme scheme then (scheme, rest) else ([], cs)

/-- Whether a scheme is that of a socket. -/
def isSocketScheme (scheme : List Char) : Bool :=
  let lower := String.ofList (scheme.map Char.toLower)
  lower = "ws" || lower = "wss"

/-- A target without a host. -/
def dropHost : List Char → List Char
  | '/' :: '/' :: cs => cs.dropWhile fun c => c ≠ '/' && c ≠ '?' && c ≠ '#'
  | cs => cs

/-- A text without control characters and spaces at its start. -/
def dropBlank (cs : List Char) : List Char := cs.dropWhile fun c => c ≤ ' '

/-- A target without tabs, line breaks, and what does not count at its start. -/
def clean (cs : List Char) : List Char :=
  (dropBlank cs).filter fun c => c ≠ '\t' && c ≠ '\n' && c ≠ '\r'

/-- A target without what comes before the path, and without a hash sign and what
follows it. -/
def reduce (cs : List Char) : List Char :=
  (cutOnce '#' (dropHost (takeScheme (clean cs)).2)).1

/-- The address that a target gives. -/
def ofTarget (target : String) : Address :=
  let (path, query) := cutOnce '?' (reduce (reduce target.toList))
  { path := (percentDecode replaceStray (dropBlank path)).dropWhile (· = '/')
    query := queryPairs query
    socket := isSocketScheme (takeScheme (clean target.toList)).1 }

/-- The first value of a name in the query. -/
def value? (a : Address) (name : String) : Option String := a.query.lookup name

end Address

example : Address.reduce "http://host/a?b#c".toList = "/a?b".toList := by decide +kernel
example : Address.reduce "a_b:/c".toList = "a_b:/c".toList := by decide +kernel
example : cutAt '/' ['a', '/', '/', 'b'] = [['a'], [], ['b']] := by decide
example : percentDecode replaceStray ['%', 'C', '3', '%', 'a', '9'] = [Char.ofNat 0xe9] := by
  decide +kernel
example : percentDecode keepStray ['%', 'f', 'f', 'a'] = ['%', 'F', 'F', 'a'] := by decide +kernel

end Blockwork.Web
