import Blockwork.Json.Reader
import Blockwork.Text.Utf8

/-!
# The encoding of JSON text

JSON text that arrives as bytes is in UTF-8, UTF-16 or UTF-32.  It starts with ASCII
characters, so the zero bytes among the first four tell which one it is, and whether
the highest byte of a unit comes first.  Of two bytes in all, one that is zero tells
of UTF-16.  In UTF-8 a byte order mark at the start does not count.

The bytes that arrive are those of a text in UTF-8, whatever encoding they turn out
to be in as JSON.
-/

namespace Blockwork.Json

open Blockwork.Text (utf8Bytes)

/-- How bytes make up units. -/
structure Encoding where
  /-- Whether a unit has four bytes, and not two. -/
  long : Bool
  /-- Whether the highest byte of a unit comes first. -/
  highFirst : Bool
deriving DecidableEq, Repr

namespace Encoding

/-- The encoding that zero bytes tell, if there are any. -/
def ofBytes? : List Nat → Option Encoding
  | b₀ :: b₁ :: b₂ :: b₃ :: _ =>
      if b₀ = 0 then some ⟨b₁ = 0, true⟩
      else if b₁ = 0 then some ⟨b₂ = 0 && b₃ = 0, false⟩
      else none
  | [b₀, b₁] =>
      if b₀ = 0 then some ⟨false, true⟩
      else if b₁ = 0 then some ⟨false, false⟩
      else none
  | _ => none

/-- Numbers below a base, two by two as one.  None may be left over. -/
def pairUp? (base : Nat) (highFirst : Bool) : List Nat → Option (List Nat)
  | [] => some []
  | [_] => none
  | a :: b :: rest =>
      let n := if highFirst then a * base + b else b * base + a
      (pairUp? base highFirst rest).map (n :: ·)

/-- The character of a code point.  A surrogate is replaced. -/
def pointChar? (n : Nat) : Option Char :=
  if isHigh n || isLow n then some (Char.ofNat 0xfffd)
  else if n < 0x110000 then some (Char.ofNat n)
  else none

/-- The characters of bytes. -/
def chars? (e : Encoding) (bytes : List Nat) : Option (List Char) := do
  let units ← pairUp? 0x100 e.highFirst bytes
  if e.long then (← pairUp? 0x10000 e.highFirst units).mapM pointChar?
  else some (joinUnits units)

end Encoding

/-- A text without the byte order mark at its start. -/
def dropMark (s : String) : String :=
  match s.toList with
  | c :: cs => if c.toNat = 0xfeff then String.ofList cs else s
  | [] => s

/-- Read JSON text that arrives as the bytes of a text. -/
def parseBytes? (s : String) : Option Json :=
  let bytes := utf8Bytes s.toList
  match Encoding.ofBytes? bytes with
  | some e => (e.chars? bytes).bind fun cs => parse? (String.ofList cs)
  | none => parse? (dropMark s)

example : Encoding.ofBytes? [0x31, 0] = some ⟨false, false⟩ := by decide
example : Encoding.chars? ⟨true, true⟩ [0, 0, 0, 0x5b, 0, 0, 0, 0x5d] = some ['[', ']'] := by
  decide
example : Encoding.chars? ⟨false, true⟩ [0, 0x5b, 0] = none := by decide

end Blockwork.Json
