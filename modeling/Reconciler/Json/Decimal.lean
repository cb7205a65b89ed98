/-
  This file defines the reals of JSON text.

  JSON text denotes a real by a numeral, which is read in
  double precision: the digits that fit a 64-bit word are
  scaled by powers of ten, with one rounding each.  The
  double found that way may be a neighbour of the nearest
  one.

  The library keeps that number as its shortest decimal: the
  fewest digits that read back as the same double.  Equal
  reals other than zero therefore have equal decimals.  Zero
  has a sign, which its text shows; `Decimal.signless` is
  the decimal for comparing numbers.

  Key definitions include:
    * `Decimal`
    * `Decimal.signless`
    * `Decimal.absorb`
    * `Decimal.scale?`
    * `Decimal.ofFloat`
    * `Decimal.ofNumeral?`
    * `Decimal.text`
-/

------------------------------------------------------------
-- Decimals
------------------------------------------------------------

namespace Reconciler

/-
  The real `± digits * 10 ^ exponent`.  Zero has digits and
  exponent zero, and either sign.
-/
structure Decimal where
  negative : Bool
  digits : Nat
  exponent : Int
deriving DecidableEq, Repr, Inhabited

namespace Decimal

/- Zero with the given sign. -/
def zero
    (negative : Bool) : Decimal :=
  ⟨negative, 0, 0⟩

/- The decimal without the sign that a zero may have. -/
def signless
    (d : Decimal) : Decimal :=
  { d with negative := d.negative && d.digits != 0 }

/- Both zeros are one number. -/
theorem signless_zero
    (negative : Bool) :
    (zero negative).signless = zero false := by
  cases negative <;> rfl

/- Only the sign of a zero is dropped. -/
theorem signless_eq_self
    {d : Decimal}
    (hDigits : d.digits ≠ 0) :
    d.signless = d := by
  have hNonzero : (d.digits != 0) = true := by
    simpa using hDigits
  simp only [signless, hNonzero, Bool.and_true]

/- Move the trailing zeros of a numeral into its exponent. -/
def strip
    (fuel digits : Nat)
    (exponent : Int) : Nat × Int :=
  match fuel with
  | 0 => (digits, exponent)
  | fuel + 1 =>
      if digits ≠ 0 ∧ digits % 10 = 0 then
        strip fuel (digits / 10) (exponent + 1)
      else
        (digits, exponent)

------------------------------------------------------------
-- Shortest Decimals
------------------------------------------------------------

/- The double nearest to `digits * 10 ^ exponent`. -/
def nearestFloat
    (digits : Nat)
    (exponent : Int) : Float :=
  Float.ofScientific
    digits (exponent < 0) exponent.natAbs

/-
  The positive double with the given bit pattern as a
  fraction of natural numbers.
-/
def fractionOfBits
    (bits : Nat) : Nat × Nat :=
  let mantissa := bits % 0x10000000000000
  let power := bits / 0x10000000000000 % 0x800
  let significand :=
    if power = 0 then mantissa else 0x10000000000000 + mantissa
  let shift := max power 1
  if 1075 ≤ shift then
    (significand * Nat.pow 2 (shift - 1075), 1)
  else
    (significand, Nat.pow 2 (1075 - shift))

/- Decimal places of a quotient: `10 ^ p ≤ num / den`. -/
def magnitude
    (num den : Nat) : Int :=
  if den ≤ num then
    ((Nat.toDigits 10 (num / den)).length : Int) - 1
  else
    -((Nat.toDigits 10 (den / num)).length : Int)

/-
  The two points of the grid of multiples of `10 ^ place`
  around a quotient, as counts of grid steps, the nearer
  one first; a half goes up.
-/
def neighbours
    (num den : Nat)
    (place : Int) : Nat × Nat :=
  let top := if place < 0
    then num * Nat.pow 10 place.natAbs else num
  let bottom := if place < 0
    then den else den * Nat.pow 10 place.natAbs
  let below := top / bottom
  if 2 * (top % bottom) < bottom then
    (below, below + 1)
  else
    (below + 1, below)

/-
  The first grid, from coarse to fine, with a point next to
  the quotient that reads back as the given double.
-/
def shortest
    (x : Float)
    (num den : Nat) :
    Nat → Int → Nat × Int
  | 0, place => ((neighbours num den place).1, place)
  | fuel + 1, place =>
      let (nearer, other) := neighbours num den place
      if nearestFloat nearer place == x then
        (nearer, place)
      else if nearestFloat other place == x then
        (other, place)
      else
        shortest x num den fuel (place - 1)

/-
  The decimal of a finite double, given as its sign and its
  magnitude.
-/
def ofFloat
    (negative : Bool)
    (x : Float) : Decimal :=
  if x == 0.0 then
    zero negative
  else
    let (num, den) := fractionOfBits x.toBits.toNat
    let (steps, place) :=
      shortest x num den 17 (magnitude num den)
    let (digits, exponent) := strip 20 steps place
    ⟨negative, digits, exponent⟩

------------------------------------------------------------
-- Reading Numerals
------------------------------------------------------------

/-
  Append digits to a number while the result is a 64-bit
  word; the digits from the first that does not fit are
  handed back.
-/
def absorb
    (n : Nat) : List Nat → Nat × List Nat
  | [] => (n, [])
  | d :: ds =>
      if n * 10 + d < 0x10000000000000000 then absorb (n * 10 + d) ds
      else (n, d :: ds)

/- The largest power of ten by which a double is scaled. -/
def maxPower : Nat :=
  308

/-
  A double scaled by a power of ten, one rounding for each
  `10 ^ 308`; nothing if the result is too large.
-/
def scale?
    (x : Float)
    (exponent : Int) : Option Float :=
  if exponent.natAbs ≤ maxPower then
    let power := nearestFloat 1 exponent.natAbs
    if exponent < 0 then
      some (x / power)
    else if (x * power).isInf then
      none
    else
      some (x * power)
  else if x == 0.0 then
    some x
  else if exponent < 0 then
    scale? (x / nearestFloat 1 maxPower)
      (exponent + maxPower)
  else
    none
termination_by exponent.natAbs
decreasing_by
  simp only [maxPower] at *
  omega

/-
  The real denoted by the digits of a whole part, those of a
  fraction, and an exponent.  Digits of the whole part that
  do not fit count as zeros, those of the fraction as
  nothing.
-/
def ofNumeral?
    (negative : Bool)
    (whole part : List Nat)
    (exponent : Int) : Option Decimal :=
  let (n, zeros) := absorb 0 whole
  let (n, dropped) := absorb n part
  let places : Int := part.length - dropped.length
  (scale? (nearestFloat n 0)
    (exponent + zeros.length - places)).map
      (ofFloat negative)

------------------------------------------------------------
-- Text
------------------------------------------------------------

/-
  The text of a decimal: a numeral with a fraction or an
  exponent, so that it does not read as an integer.
-/
def text
    (d : Decimal) : String :=
  let sign := if d.negative then "-" else ""
  let body :=
    if d.exponent < 0 then
      s!"{d.digits}e-{d.exponent.natAbs}"
    else if d.exponent < 16 then
      s!"{d.digits * Nat.pow 10 d.exponent.natAbs}.0"
    else
      s!"{d.digits}e{d.exponent.natAbs}"
  sign ++ body

end Decimal

end Reconciler
