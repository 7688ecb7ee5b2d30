/-!
# Bytes of UTF-8

A character is one to four bytes.  Reading goes byte by byte and keeps the character
that is not complete yet (`Unfinished`), with the range of its next byte.  The range
leaves out what is longer than it has to be, what is a surrogate, and what is beyond
the last character.  When a byte is out of range, the bytes before it are stray, and
reading starts anew with it.
-/

namespace Blockwork.Text

/-- The bytes of a text in UTF-8. -/
def utf8Bytes (cs : List Char) : List Nat :=
  cs.flatMap fun c => (String.utf8EncodeChar c).map UInt8.toNat

/-- A character that is not complete yet. -/
structure Unfinished where
  /-- Its bytes so far. -/
  bytes : List Nat
  /-- Its code point so far. -/
  value : Nat
  /-- The number of bytes to come. -/
  missing : Nat
  /-- The least next byte. -/
  least : Nat := 0x80
  /-- The greatest next byte. -/
  greatest : Nat := 0xbf

/-- Read the first byte of a character.  The answer is what is complete, and what
is not. -/
def firstByte (stray : List Nat → List Char) (b : Nat) : List Char × Option Unfinished :=
  if b < 0x80 then ([Char.ofNat b], none)
  else if b < 0xc2 then (stray [b], none)
  else if b < 0xe0 then ([], some { bytes := [b], value := b - 0xc0, missing := 1 })
  else if b = 0xe0 then ([], some { bytes := [b], value := 0, missing := 2, least := 0xa0 })
  else if b = 0xed then ([], some { bytes := [b], value := 0xd, missing := 2, greatest := 0x9f })
  else if b < 0xf0 then ([], some { bytes := [b], value := b - 0xe0, missing := 2 })
  else if b = 0xf0 then ([], some { bytes := [b], value := 0, missing := 3, least := 0x90 })
  else if b < 0xf4 then ([], some { bytes := [b], value := b - 0xf0, missing := 3 })
  else if b = 0xf4 then ([], some { bytes := [b], value := 4, missing := 3, greatest := 0x8f })
  else (stray [b], none)

/-- Read one byte.  Bytes that turn out to be no character are given to `stray`. -/
def nextByte (stray : List Nat → List Char) :
    Option Unfinished → Nat → List Char × Option Unfinished
  | none, b => firstByte stray b
  | some p, b =>
      if p.least ≤ b && b ≤ p.greatest then
        let value := p.value * 0x40 + (b - 0x80)
        if p.missing = 1 then ([Char.ofNat value], none)
        else ([], some { bytes := p.bytes ++ [b], value, missing := p.missing - 1 })
      else
        let (cs, q) := firstByte stray b
        (stray p.bytes ++ cs, q)

/-- The characters of bytes in UTF-8. -/
def utf8Chars (stray : List Nat → List Char) : Option Unfinished → List Nat → List Char
  | none, [] => []
  | some p, [] => stray p.bytes
  | p, b :: bs =>
      let (cs, q) := nextByte stray p b
      cs ++ utf8Chars stray q bs

example : utf8Bytes [Char.ofNat 0xe9, 'a'] = [0xc3, 0xa9, 0x61] := by decide +kernel
example : utf8Chars (fun _ => ['?']) none [0xc3, 0x61, 0xe2, 0x82, 0xac] =
    ['?', 'a', Char.ofNat 0x20ac] := by decide +kernel

end Blockwork.Text
