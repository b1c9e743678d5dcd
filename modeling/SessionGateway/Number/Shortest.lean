/-
  Shortest decimals — the fewest digits that read back as the same number.

  The reals that round to a number form an interval around it, whose ends belong to it
  if the significand is even.  `Decimal.shortest` takes the first of the decimal grids
  of one, two, … digits that has a point in the interval, and of its two points beside
  the number the nearer one (the even one of two equally near).

  `Decimal.Layout` says how digits are laid out: which exponents of the first digit are
  written in positional form, the others in scientific form with a signed exponent.
-/
import SessionGateway.Number.Binary64

namespace SessionGateway

/-- The decimal number `digits · 10 ^ exponent`. -/
structure Decimal where
  digits : Nat
  exponent : Int
  deriving DecidableEq, Repr

namespace Decimal

/-! ## The grid points beside a number -/

/-- The exponent of the first decimal digit of the quotient `num / den`. -/
def leading (num den : Nat) : Int :=
  if den ≤ num then (Numeral.decimal (num / den)).length - 1
  else -((Numeral.decimal ((den - 1) / num)).length : Int)

/-- The interval of reals that round to a positive number, as the three quotients
    `low / unit`, `value / unit`, `high / unit`, and whether the ends belong to it. -/
structure Interval where
  low : Nat
  value : Nat
  high : Nat
  unit : Nat
  closed : Bool

/-- The interval around a positive number: it ends half way to the neighbours, and the neighbour
    below a power of two is only half as far as the one above. -/
def interval (x : Binary64) : Interval :=
  let m := x.significand
  let gap := if m = 1 <<< 52 ∧ Binary64.leastExponent < x.exponent then 1 else 2
  let (f, u) :=
    if x.exponent < 0 then (1, 4 <<< (-x.exponent).toNat) else (1 <<< x.exponent.toNat, 4)
  ⟨(4 * m - gap) * f, 4 * m * f, (4 * m + 2) * f, u, m % 2 == 0⟩

/-- Whether the quotient `num / den` lies in the interval. -/
def Interval.contains (i : Interval) (num den : Nat) : Bool :=
  let l := i.low * den
  let h := i.high * den
  let v := num * i.unit
  if i.closed then l ≤ v && v ≤ h else l < v && v < h

/-- The point of the grid `10 ^ k` in the interval that is nearest to the number, if there is
    one. -/
def gridPoint? (i : Interval) (k : Int) : Option Decimal :=
  let (p, q) : Nat × Nat := if k < 0 then (1, Nat.pow 10 (-k).toNat) else (Nat.pow 10 k.toNat, 1)
  let below := i.value * q / (i.unit * p)
  let twice := 2 * (i.value * q % (i.unit * p))
  let inside (c : Nat) : Bool := i.contains (c * p) q
  match inside below, inside (below + 1) with
  | true, true =>
    if twice < i.unit * p ∨ (twice = i.unit * p ∧ below % 2 = 0) then some ⟨below, k⟩
    else some ⟨below + 1, k⟩
  | true, false => some ⟨below, k⟩
  | false, true => some ⟨below + 1, k⟩
  | false, false => none

/-- The first hit on the grids from `10 ^ k` down, at most `steps` of them. -/
def search (i : Interval) (k : Int) : Nat → Option Decimal
  | 0 => none
  | steps + 1 => (gridPoint? i k).or (search i (k - 1) steps)

/-- Without zeros at the end of the digits. -/
def strip (digits : Nat) (exponent : Int) : Decimal :=
  if h : digits ≠ 0 ∧ digits % 10 = 0 then strip (digits / 10) (exponent + 1)
  else ⟨digits, exponent⟩
termination_by digits
decreasing_by omega

/-- The shortest decimal that rounds to the absolute value of a number, without zeros at its
    end. -/
def shortest (x : Binary64) : Decimal :=
  if x.isZero then ⟨0, 0⟩
  else
    let (n, d) := x.ratio
    let found := (search (interval x) (leading n d) 17).getD ⟨0, 0⟩
    strip found.digits found.exponent

/-! ## Layout -/

/-- Where positional form ends: the least and the greatest exponent of a first digit that is
    written positionally. -/
structure Layout where
  least : Int
  greatest : Int

/-- The digits `ds`, the first one of weight `10 ^ lead`, with a point among or around them. -/
def positional (ds : Text) (lead : Int) : Text :=
  if lead < 0 then '0' :: '.' :: (List.replicate (-lead - 1).toNat '0' ++ ds)
  else
    let whole := lead.toNat + 1
    if ds.length ≤ whole then ds ++ List.replicate (whole - ds.length) '0' ++ ['.', '0']
    else ds.take whole ++ '.' :: ds.drop whole

/-- The digits `ds` with a point behind the first one and the exponent `lead`, always signed. -/
def scientific (ds : Text) (lead : Int) : Text :=
  let fraction := if ds.length ≤ 1 then [] else '.' :: ds.drop 1
  let sign := if lead < 0 then '-' else '+'
  ds.take 1 ++ fraction ++ 'e' :: sign :: Numeral.decimal lead.natAbs

/-- The text of a number in a layout: its shortest digits, with at least one behind the point in
    positional form. -/
def Layout.write (l : Layout) (x : Binary64) : Text :=
  let d := shortest x
  let ds := Numeral.decimal d.digits
  let lead := d.exponent + ds.length - 1
  let body := if l.least ≤ lead ∧ lead ≤ l.greatest then positional ds lead else scientific ds lead
  if x.negative then '-' :: body else body

end Decimal

end SessionGateway
