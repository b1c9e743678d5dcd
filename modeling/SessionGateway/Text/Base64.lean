/-
  Base64 — octets as text over the standard alphabet, with padding.

  `Base64.encode` writes three octets as four characters and pads the last group with
  `=`.  `Base64.decode?` reads exactly what `encode` writes: padding is required, and the
  bits that a padded group does not use are zero.
-/
import SessionGateway.Text.Basic

namespace SessionGateway.Base64

/-- The character of a value below sixty-four. -/
def symbol (n : Nat) : Char :=
  if n < 26 then Char.ofNat (65 + n)
  else if n < 52 then Char.ofNat (71 + n)
  else if n < 62 then Char.ofNat (n - 4)
  else if n = 62 then '+' else '/'

/-- The value of a character of the alphabet. -/
def value? (c : Char) : Option Nat :=
  if 'A' ≤ c ∧ c ≤ 'Z' then some (c.toNat - 65)
  else if 'a' ≤ c ∧ c ≤ 'z' then some (c.toNat - 71)
  else if '0' ≤ c ∧ c ≤ '9' then some (c.toNat + 4)
  else if c = '+' then some 62
  else if c = '/' then some 63
  else none

/-- The octets in groups of three, each group as four characters. -/
def encode : Bytes → Text
  | [] => []
  | [a] => [symbol (a.toNat / 4), symbol (a.toNat % 4 * 16), '=', '=']
  | [a, b] =>
    [symbol (a.toNat / 4), symbol (a.toNat % 4 * 16 + b.toNat / 16),
      symbol (b.toNat % 16 * 4), '=']
  | a :: b :: c :: rest =>
    symbol (a.toNat / 4) :: symbol (a.toNat % 4 * 16 + b.toNat / 16) ::
      symbol (b.toNat % 16 * 4 + c.toNat / 64) :: symbol (c.toNat % 64) :: encode rest

/-- The octet of a number below 256. -/
def octet (n : Nat) : UInt8 := UInt8.ofNat n

/-- The octets of the values of a full group. -/
def group (p q r s : Nat) : Bytes :=
  [octet (p * 4 + q / 16), octet (q % 16 * 16 + r / 4), octet (r % 4 * 64 + s)]

/-- The octets of the last group, which may be padded. -/
def lastGroup? (p q r s : Char) : Option Bytes := do
  let p ← value? p
  let q ← value? q
  if s = '=' then
    if r = '=' then
      if q % 16 = 0 then some [octet (p * 4 + q / 16)] else none
    else
      let r ← value? r
      if r % 4 = 0 then some [octet (p * 4 + q / 16), octet (q % 16 * 16 + r / 4)] else none
  else
    let r ← value? r
    let s ← value? s
    some (group p q r s)

/-- Reads what `encode` writes; none for any other text. -/
def decode? : Text → Option Bytes
  | [] => some []
  | [p, q, r, s] => lastGroup? p q r s
  | p :: q :: r :: s :: rest => do
    let p ← value? p
    let q ← value? q
    let r ← value? r
    let s ← value? s
    let after ← decode? rest
    some (group p q r s ++ after)
  | _ => none

theorem value?_symbol : ∀ n : Fin 64, value? (symbol n.val) = some n.val := by decide

end SessionGateway.Base64
