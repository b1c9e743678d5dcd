/-
  Scalars in markup — the value that the text of an element or attribute stands for.

  `true`, `false` and `null` are read in any case.  A text that looks like a number is a
  whole number if it fits sixty-four bits with a sign, and a float otherwise; a leading
  zero that would be lost keeps it a text, and so does a value beyond the greatest float.
-/
import SessionGateway.Json.Value

namespace SessionGateway.Xml

/-- Whether a text begins with a digit, behind at most one minus sign, and with no zero before
    another digit. -/
def looksNumeric (t : Text) : Bool :=
  match (dropStart? ['-'] t).getD t with
  | '0' :: c :: _ => !c.isDigit
  | c :: _ => c.isDigit
  | [] => false

/-- A point and the digits behind it, which may be absent; no point stands for no digits. -/
def fraction : Text → Text × Text
  | '.' :: t => Numeral.leading t
  | t => ([], t)

/-- Reads digits with an optional sign, point and exponent as the nearest float. -/
def float? (t : Text) : Option Binary64 := do
  let (negative, t) := Numeral.sign t
  let (whole, t) := Numeral.leading t
  let (part, t) := fraction t
  let n ← Numeral.decimal? (whole ++ part)
  let (exponent, t) ← Numeral.exponent? t
  let power : Int :=
    match exponent with
    | none => 0
    | some (down, ds) =>
      let e : Int := (Numeral.decimal? ds).getD 0
      if down then -e else e
  if t.isEmpty then (Binary64.ofDecimal n (power - part.length)).map (·.withSign negative)
  else none

/-- The number that a text stands for. -/
def number? (t : Text) : Option Json.Number :=
  if looksNumeric t then
    match (Numeral.signed? t).filter Numeral.fitsSigned64 with
    | some i => some (.whole i)
    | none => (float? t).map .float
  else none

/-- The value that a text stands for. -/
def coerce (t : Text) : Json :=
  if Text.sameLetters t "true".toList then .bool true
  else if Text.sameLetters t "false".toList then .bool false
  else if Text.sameLetters t "null".toList then .null
  else
    match number? t with
    | some n => .number n
    | none => .string t

end SessionGateway.Xml
