/-!
# Exact values of floating-point numbers

A finite double is `m * 2 ^ e` for a natural number `m` below `2 ^ 53` and an
exponent from `-1074` to `971`, up to sign.  `decode` reads the two numbers off
the bits, and `nearest` goes back from a quotient of natural numbers to the
double next to it.  Ties go to the even `m`, and what is too large becomes
infinite.  All of it is arithmetic on natural numbers.
-/

namespace Blockwork.Decimal

/-- What the bits of a double stand for. -/
inductive Decoded
  /-- Not a number. -/
  | nan
  /-- An infinity. -/
  | infinite (negative : Bool)
  /-- The number `m * 2 ^ e`, up to sign. -/
  | finite (negative : Bool) (m : Nat) (e : Int)
deriving DecidableEq, Repr

/-- A power of two. -/
def twoTo (n : Nat) : Nat := Nat.pow 2 n

/-- A power of ten. -/
def tenTo (n : Nat) : Nat := Nat.pow 10 n

/-- Read the bits of a double. -/
def decodeBits (bits : Nat) : Decoded :=
  let negative := bits / twoTo 63 % 2 == 1
  let field := bits / twoTo 52 % twoTo 11
  let fraction := bits % twoTo 52
  if field = twoTo 11 - 1 then
    if fraction = 0 then .infinite negative else .nan
  else if field = 0 then .finite negative fraction (-1074)
  else .finite negative (fraction + twoTo 52) (Int.ofNat field - 1075)

/-- The exact value of a double. -/
def decode (x : Float) : Decoded := decodeBits x.toBits.toNat

/-- The quotient to the nearest natural number, a half to the even neighbour. -/
def roundDiv (num den : Nat) : Nat :=
  let q := num / den
  let r := num % den
  if 2 * r < den then q
  else if den < 2 * r then q + 1
  else if q % 2 = 0 then q else q + 1

/-- The bits of the largest exponent field, where the infinities begin. -/
def infiniteBits : Nat := (twoTo 11 - 1) * twoTo 52

/-- The quotient `num / den` counted in units of `2 ^ e`, rounded down. -/
def unitsBelow (num den : Nat) (e : Int) : Nat :=
  num * twoTo (-e).toNat / (den * twoTo e.toNat)

/-- The exponent of the double next to a positive quotient: the least that
leaves fewer than `2 ^ 53` units, and no less than `-1074`. -/
def unitExponent (num den : Nat) : Int :=
  let guess := Int.ofNat num.log2 - Int.ofNat den.log2 - 53
  let guess := if guess < -1074 then -1074 else guess
  if unitsBelow num den guess < twoTo 53 then guess else guess + 1

/-- The bits of the double next to `num / den`, without the sign. -/
def nearestBits (num den : Nat) : Nat :=
  if num = 0 then 0
  else
    let e := unitExponent num den
    let m := roundDiv (num * twoTo (-e).toNat) (den * twoTo e.toNat)
    let bits := (e + 1074).toNat * twoTo 52 + m
    if bits < infiniteBits then bits else infiniteBits

/-- The double next to `num / den`, for a denominator that is not zero. -/
def nearest (negative : Bool) (num den : Nat) : Float :=
  Float.ofBits (UInt64.ofNat (nearestBits num den + if negative then twoTo 63 else 0))

/-- The number of decimal digits of a natural number. -/
def digitCount (n : Nat) : Nat := (Nat.toDigits 10 n).length

/-- The double next to `m * 10 ^ e`.  The ends of the range are decided on the
number of digits, so a huge exponent costs nothing. -/
def ofDecimal (negative : Bool) (m : Nat) (e : Int) : Float :=
  let top := Int.ofNat (digitCount m) + e
  if m = 0 || top < -400 then nearest negative 0 1
  else if 400 < top then
    Float.ofBits (UInt64.ofNat (infiniteBits + if negative then twoTo 63 else 0))
  else nearest negative (m * tenTo e.toNat) (tenTo (-e).toNat)

/-- The double next to an integer, unless it would be infinite. -/
def ofInt? (n : Int) : Option Float :=
  if nearestBits n.natAbs 1 < infiniteBits then some (nearest (decide (n < 0)) n.natAbs 1)
  else none

/-- The double of a small natural number. -/
def ofNat (n : Nat) : Float := nearest false n 1

/-- A finite double cut toward zero. -/
def truncate? (x : Float) : Option Int :=
  match decode x with
  | .finite negative m e =>
      let n : Int := Int.ofNat (m * twoTo e.toNat / twoTo (-e).toNat)
      some (if negative then -n else n)
  | _ => none

/-- Whether a double is the integer `n` exactly. -/
def isInt (x : Float) (n : Int) : Bool :=
  match decode x with
  | .finite negative m e =>
      let signed : Int := if negative then -Int.ofNat m else Int.ofNat m
      signed * Int.ofNat (twoTo e.toNat) == n * Int.ofNat (twoTo (-e).toNat)
  | _ => false

example : decodeBits 0x3ff8000000000000 = .finite false (3 * twoTo 51) (-52) := by decide
example : nearestBits 1 10 = 0x3fb999999999999a := by decide
example : nearestBits (twoTo 1024) 1 = infiniteBits := by decide +kernel

end Blockwork.Decimal
