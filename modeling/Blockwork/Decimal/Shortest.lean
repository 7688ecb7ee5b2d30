import Blockwork.Decimal.Binary

/-!
# The shortest decimal text of a number

A double is written with the fewest decimal digits that read back as the same
double, and among those with the digits nearest to it.  `shortest` finds them for a
positive value `m * 2 ^ e`: it takes the interval of reals that round to the value,
whose ends belong to it when `m` is even, and tries the grids of one, two, up to
seventeen digits.  On every grid only the two neighbours of the value have to be
looked at.  The first grid with a hit wins.  Of two hits the nearer wins, and the
even one of two equally near.

How the digits are laid out is the business of a `Layout`, a record with the range
of exponents that are written positionally and the names of the values that have no
digits.  A layout may also choose its digits in another way.
-/

namespace Blockwork.Decimal

/-- Decimal digits `d` and an exponent `x`, for the value `d * 10 ^ x`. -/
structure Digits where
  /-- The digits, as one number. -/
  digits : Nat
  /-- The power of ten they are multiplied by. -/
  exponent : Int
deriving DecidableEq, Repr

/-- Multiply by a power of ten with any exponent, as numerator and denominator. -/
def timesTen (num den : Nat) (k : Int) : Nat × Nat :=
  (num * tenTo k.toNat, den * tenTo (-k).toNat)

/-- The power of ten at or below a positive quotient, given a binary estimate
that is off by one at most. -/
def tenExponent (num den : Nat) (binary : Int) : Int :=
  let guess := (binary * 30103).fdiv 100000
  let atLeast (k : Int) : Bool :=
    let scaled := timesTen num den (-k)
    scaled.2 ≤ scaled.1
  if atLeast (guess + 1) then guess + 1 else if atLeast guess then guess else guess - 1

/-- The interval of reals that round to a double, in quarters of its unit. -/
structure Interval where
  value : Nat
  /-- The lower end. -/
  low : Nat
  /-- The upper end. -/
  high : Nat
  /-- Whether the ends belong to the interval. -/
  closed : Bool

/-- The interval of `m * 2 ^ e`.  Below a power of two the doubles lie twice as
close. -/
def Interval.of (m : Nat) (e : Int) : Interval where
  value := 4 * m
  low := if m = twoTo 52 ∧ e ≠ -1074 then 4 * m - 1 else 4 * m - 2
  high := 4 * m + 2
  closed := m % 2 = 0

/-- Whether the quotient `num / den` lies in the interval. -/
def Interval.has (i : Interval) (num den : Nat) : Bool :=
  if i.closed then i.low * den ≤ num && num ≤ i.high * den
  else i.low * den < num && num < i.high * den

/-- The distance of two natural numbers. -/
def gap (a b : Nat) : Nat := (a - b) + (b - a)

/-- The better of the two neighbours of the value on the grid of step
`10 ^ x`, if one of them lies in the interval.  The unit of the interval is
`num / den`. -/
def onGrid (i : Interval) (num den : Nat) (x : Int) : Option Nat :=
  -- a grid point d is the quotient d * 10 ^ x * den / num of units
  let step := timesTen den num x
  let below := i.value * step.2 / step.1
  let inside (d : Nat) : Bool := i.has (d * step.1) step.2
  let far (d : Nat) : Nat := gap (d * step.1) (i.value * step.2)
  match inside below && below != 0, inside (below + 1) with
  | true, true =>
      if far below < far (below + 1) then some below
      else if far (below + 1) < far below then some (below + 1)
      else some (if below % 2 = 0 then below else below + 1)
  | true, false => some below
  | false, true => some (below + 1)
  | false, false => none

/-- Try the grids of `n`, `n + 1`, and so on digits, `fuel` of them. -/
def firstGrid (i : Interval) (num den : Nat) (top : Int) : Nat → Int → Option Digits
  | 0, _ => none
  | fuel + 1, n =>
      let x := top + 1 - n
      match onGrid i num den x with
      | some d => some ⟨d, x⟩
      | none => firstGrid i num den top fuel (n + 1)

/-- Move the zeros at the end of the digits into the exponent. -/
def Digits.trim : Nat → Digits → Digits
  | 0, d => d
  | fuel + 1, d =>
      if d.digits % 10 = 0 && d.digits != 0 then
        Digits.trim fuel ⟨d.digits / 10, d.exponent + 1⟩
      else d

/-- The shortest digits of a positive `m * 2 ^ e`.  Seventeen digits always
suffice. -/
def shortest (m : Nat) (e : Int) : Digits :=
  -- a quarter of the unit is 2 ^ (e - 2)
  let num := twoTo (e - 2).toNat
  let den := twoTo (2 - e).toNat
  let top := tenExponent (4 * m * num) den (Int.ofNat m.log2 + e)
  match firstGrid (.of m e) num den top 17 1 with
  | some d => d.trim 20
  | none => ⟨m * twoTo e.toNat, 0⟩

/-! ## Layout -/

/-- How digits are laid out. -/
structure Layout where
  /-- Powers of ten from this one on are written positionally. -/
  least : Int
  /-- Powers of ten from this one on are written with an exponent. -/
  most : Int
  /-- The least number of digits of an exponent. -/
  exponentWidth : Nat
  /-- The text of a value that is not a number. -/
  nan : String
  /-- The text of positive infinity. -/
  infinity : String
  /-- The digits that are written for a positive `m * 2 ^ e`. -/
  choose : Nat → Int → Digits := shortest
  /-- Whether a single digit before an exponent has a point and a zero behind
  it. -/
  pointed : Bool := false

/-- Digits with the point behind the first of them and an exponent. -/
def Layout.scientific (l : Layout) (ds : List Char) (p : Int) : List Char :=
  let mantissa := match ds with
    | [] => ['0']
    | [d] => if l.pointed then [d, '.', '0'] else [d]
    | d :: rest => d :: '.' :: rest
  let size := Nat.toDigits 10 p.natAbs
  mantissa ++ 'e' :: (if p < 0 then '-' else '+') ::
    (List.replicate (l.exponentWidth - size.length) '0' ++ size)

/-- Digits with the point where it belongs and at least one digit on each side
of it. -/
def positional (ds : List Char) (p : Int) : List Char :=
  if p < 0 then ['0', '.'] ++ List.replicate ((-p).toNat - 1) '0' ++ ds
  else
    let whole := p.toNat + 1
    if ds.length ≤ whole then ds ++ List.replicate (whole - ds.length) '0' ++ ['.', '0']
    else ds.take whole ++ '.' :: ds.drop whole

/-- The text of digits, where `p` is the power of ten of the first one. -/
def Layout.digits (l : Layout) (d : Digits) : List Char :=
  let ds := Nat.toDigits 10 d.digits
  let p := d.exponent + Int.ofNat ds.length - 1
  if l.least ≤ p && p < l.most then positional ds p else l.scientific ds p

/-- The text of a decoded double. -/
def Layout.text (l : Layout) : Decoded → String
  | .nan => l.nan
  | .infinite negative => (if negative then "-" else "") ++ l.infinity
  | .finite negative m e =>
      let body := if m = 0 then ['0', '.', '0'] else l.digits (l.choose m e)
      String.ofList (if negative then '-' :: body else body)

example : shortest 0x1999999999999a (-56) = ⟨1, -1⟩ := by decide +kernel
example : shortest 1 (-1074) = ⟨5, -324⟩ := by decide +kernel
example : shortest (twoTo 52) 1 = ⟨9007199254740992, 0⟩ := by decide +kernel

end Blockwork.Decimal
