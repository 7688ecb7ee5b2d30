import Blockwork.Decimal.Shortest

/-!
# Fifteen digits in 64-bit arithmetic

Numbers that are kept as text have fifteen digits.  They are found by scaling: the
value is divided or multiplied by powers of ten until it lies between one and ten,
half a unit of the last digit is added, and the digits are taken off one by one.
Every result on the way is rounded to 64 binary digits, a half to the even
neighbour.

Where the exact value is not near the middle of two decimals, the digits are those
of the nearer one.  Near the middle the rounding errors decide, so
`281474976710656.5` loses its half and `102993039892906.5` gains one.
-/

namespace Blockwork.Decimal

/-- A number `significand * 2 ^ exponent` of the arithmetic. -/
structure Extended where
  /-- At most 64 binary digits. -/
  significand : Nat
  /-- The power of two they are multiplied by. -/
  exponent : Int
deriving DecidableEq, Repr

namespace Extended

/-! ## Arithmetic -/

/-- The number next to `num / den * 2 ^ e`. -/
def near (num den : Nat) (e : Int) : Extended :=
  if num = 0 then ⟨0, 0⟩
  else
    let guess := Int.ofNat num.log2 - Int.ofNat den.log2 - 64
    let shift := if unitsBelow num den guess < twoTo 64 then guess else guess + 1
    ⟨roundDiv (num * twoTo (-shift).toNat) (den * twoTo shift.toNat), shift + e⟩

/-- The product. -/
def mul (x y : Extended) : Extended :=
  near (x.significand * y.significand) 1 (x.exponent + y.exponent)

/-- The quotient. -/
def div (x y : Extended) : Extended := near x.significand y.significand (x.exponent - y.exponent)

/-- A number in units of a smaller power of two. -/
def units (x : Extended) (e : Int) : Nat := x.significand * twoTo (x.exponent - e).toNat

/-- The smaller of two exponents. -/
def lowExponent (x y : Extended) : Int :=
  if x.exponent ≤ y.exponent then x.exponent else y.exponent

/-- The sum. -/
def add (x y : Extended) : Extended :=
  let e := lowExponent x y
  near (x.units e + y.units e) 1 e

/-- Whether one number is less than another. -/
def less (x y : Extended) : Bool :=
  let e := lowExponent x y
  x.units e < y.units e

/-- The whole part. -/
def whole (x : Extended) : Nat :=
  x.significand * twoTo x.exponent.toNat / twoTo (-x.exponent).toNat

/-- What is left without the whole part. -/
def fraction (x : Extended) : Extended :=
  ⟨x.significand % twoTo (-x.exponent).toNat, x.exponent⟩

/-- The double next to `num / den`, as a number of the arithmetic. -/
def constant (num den : Nat) : Extended :=
  match decodeBits (nearestBits num den) with
  | .finite _ m e => ⟨m, e⟩
  | _ => ⟨0, 0⟩

/-! ## Scaling -/

/-- Multiply a scale by a step as long as it does not pass `x`, and count the
powers of ten. -/
def climb (x step : Extended) (power : Int) : Nat → Extended × Int → Extended × Int
  | 0, s => s
  | fuel + 1, (scale, p) =>
      let next := scale.mul step
      if x.less next then (scale, p) else climb x step power fuel (next, p + power)

/-- Multiply a number by a step as long as it is below a bound, and count the
powers of ten. -/
def lift (bound step : Extended) (power : Int) : Nat → Extended × Int → Extended × Int
  | 0, s => s
  | fuel + 1, (x, p) =>
      if x.less bound then lift bound step power fuel (x.mul step, p - power) else (x, p)

/-- A number between one and ten, and the power of ten it has to be multiplied by
to be `x`.  A power of ten is reached in steps of 100, 10 and 1, or in steps of 8
and 1 below one. -/
def scaled (x : Extended) : Extended × Int :=
  let one := constant 1 1
  let ten := constant 10 1
  let s := climb x (constant (tenTo 100) 1) 100 4 (one, 0)
  let s := climb x (constant (tenTo 10) 1) 10 10 s
  let s := climb x ten 1 10 s
  let s := lift (constant 1 (tenTo 8)) (constant (tenTo 8) 1) 8 45 (x.div s.1, s.2)
  lift one ten 1 10 s

/-- Take `n` digits off a number below ten, behind those taken so far. -/
def takeDigits : Nat → Nat → Extended → Nat
  | 0, taken, _ => taken
  | n + 1, taken, x => takeDigits n (10 * taken + x.whole) (x.fraction.mul (constant 10 1))

end Extended

/-- The digits of a positive `m * 2 ^ e`, fifteen of them. -/
def fifteen (m : Nat) (e : Int) : Digits :=
  let (x, p) := Extended.scaled (.near m 1 e)
  let x := x.add (.constant 5 (tenTo 15))
  let (x, p) := if x.less (.constant 10 1) then (x, p) else (x.mul (.constant 1 10), p + 1)
  (⟨x.takeDigits 15 0, p - 14⟩ : Digits).trim 15

example : fifteen 0x13333333333334 (-54) = ⟨3, -1⟩ := by decide +kernel
example : fifteen 562949953421313 (-1) = ⟨281474976710656, 0⟩ := by decide +kernel
example : fifteen 205986079785813 (-1) = ⟨102993039892907, 0⟩ := by decide +kernel

end Blockwork.Decimal
