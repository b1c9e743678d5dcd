/-
  Binary64 — the finite double-precision numbers, in exact arithmetic.

  A number is a sign, a significand of at most 53 bits and a power of two; every
  operation is computed on natural numbers and rounded once, to the nearest number and
  to the even one of two nearest.

  * `Binary64.ofRatio` rounds a quotient; it has no value beyond the greatest number;
  * `Binary64.ofDecimal` rounds `digits · 10 ^ exponent` once;
  * `Binary64.ofDecimalTwice` rounds the digits first and then the product or quotient
    with the nearest number to a power of ten.
-/
import SessionGateway.Text.Numeral

namespace SessionGateway

/-- The number `significand · 2 ^ exponent`, or its opposite. -/
structure Binary64 where
  negative : Bool
  significand : Nat
  exponent : Int
  deriving DecidableEq, Repr

namespace Binary64

/-- The exponent of the numbers nearest to zero. -/
def leastExponent : Int := -1074

/-- The exponent of the greatest numbers. -/
def greatestExponent : Int := 971

/-- Zero, with a sign. -/
def zero (negative : Bool) : Binary64 := ⟨negative, 0, leastExponent⟩

def isZero (x : Binary64) : Bool := x.significand == 0

/-- The number with the given sign. -/
def withSign (x : Binary64) (negative : Bool) : Binary64 := { x with negative }

/-! ## Rounding -/

/-- The quotient `num / (den · 2 ^ q)` as numerator and denominator. -/
def scale (q : Int) (num den : Nat) : Nat × Nat :=
  if q < 0 then (num <<< (-q).toNat, den) else (num, den <<< q.toNat)

/-- The whole number nearest to a quotient, the even one of two. -/
def roundDiv (num den : Nat) : Nat :=
  let s := num / den
  let r := num % den
  if 2 * r < den ∨ (2 * r = den ∧ s % 2 = 0) then s else s + 1

/-- The exponent at which the quotient `num / den` has a significand of 53 bits, or the least
    exponent if that is greater. -/
def exponentOf (num den : Nat) : Int :=
  let e : Int := (Nat.log2 num : Int) - Nat.log2 den - 53
  let (n, d) := scale e num den
  max (if n / d < 1 <<< 53 then e else e + 1) leastExponent

/-- The number nearest to `num / den`; none if it is beyond the greatest one. -/
def ofRatio (num den : Nat) : Option Binary64 :=
  if num = 0 then some (zero false)
  else
    let q := exponentOf num den
    let (n, d) := scale q num den
    let s := roundDiv n d
    let (s, q) := if s = 1 <<< 53 then (1 <<< 52, q + 1) else (s, q)
    if q ≤ greatestExponent then some ⟨false, s, q⟩ else none

/-- The absolute value as a quotient. -/
def ratio (x : Binary64) : Nat × Nat :=
  if x.exponent < 0 then (x.significand, 1 <<< (-x.exponent).toNat)
  else (x.significand <<< x.exponent.toNat, 1)

/-- The rounded product of the absolute values. -/
def mul (x y : Binary64) : Option Binary64 :=
  ofRatio (x.ratio.1 * y.ratio.1) (x.ratio.2 * y.ratio.2)

/-- The rounded quotient of the absolute values. -/
def div (x y : Binary64) : Option Binary64 :=
  ofRatio (x.ratio.1 * y.ratio.2) (x.ratio.2 * y.ratio.1)

/-! ## From decimal digits -/

/-- The number nearest to `digits · 10 ^ exponent`; none beyond the greatest one. -/
def ofDecimal (digits : Nat) (exponent : Int) : Option Binary64 :=
  let magnitude : Int := (Numeral.decimal digits).length + exponent
  if digits = 0 ∨ magnitude < -330 then some (zero false)
  else if 330 < magnitude then none
  else if exponent < 0 then ofRatio digits (Nat.pow 10 (-exponent).toNat)
  else ofRatio (digits * Nat.pow 10 exponent.toNat) 1

/-- The greatest power of ten that is not beyond the greatest number. -/
def tenLimit : Nat := 308

/-- The number nearest to a power of ten. -/
def ten (k : Nat) : Binary64 := (ofRatio (Nat.pow 10 k) 1).getD (zero false)

/-- `x · 10 ^ exponent`, rounded at each multiplication or division by a power of ten that is a
    number; none beyond the greatest number. -/
def shift (x : Binary64) (exponent : Int) : Option Binary64 :=
  if x.isZero then some x
  else if 0 ≤ exponent then
    if exponent ≤ tenLimit then x.mul (ten exponent.toNat) else none
  else if -(tenLimit : Int) ≤ exponent then x.div (ten (-exponent).toNat)
  else (x.div (ten tenLimit)).bind fun y => shift y (exponent + tenLimit)
termination_by (-exponent).toNat
decreasing_by simp only [tenLimit] at *; omega

/-- `digits · 10 ^ exponent`, rounded first at the digits and then at each power of ten. -/
def ofDecimalTwice (digits : Nat) (exponent : Int) : Option Binary64 :=
  (ofRatio digits 1).bind fun x => x.shift exponent

/-- The whole number that the number is, if it is one. -/
def whole? (x : Binary64) : Option Int :=
  let (n, d) := x.ratio
  if n % d = 0 then some (if x.negative then -((n / d : Nat) : Int) else (n / d : Nat)) else none

end Binary64

end SessionGateway
