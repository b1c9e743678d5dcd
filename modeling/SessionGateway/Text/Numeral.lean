/-
  Numerals — whole numbers written in decimal and hexadecimal digits.

  * `Numeral.decimal n` writes `n` without leading zeros, `Numeral.decimal? t` reads a
    non-empty run of decimal digits of any length;
  * `Numeral.signed?` reads an optional sign first, `Numeral.bounded?` an optional `+`
    and refuses a number above its limit: the two forms in which numbers of limited
    width are read from headers, properties and identifiers.
-/
import SessionGateway.Text.Basic

namespace SessionGateway.Numeral

/-- The value of a decimal digit. -/
def digit? (c : Char) : Option Nat :=
  if '0' ≤ c ∧ c ≤ '9' then some (c.toNat - 48) else none

/-- The value of a hexadecimal digit of either case. -/
def hexDigit? (c : Char) : Option Nat :=
  if '0' ≤ c ∧ c ≤ '9' then some (c.toNat - 48)
  else if 'a' ≤ c ∧ c ≤ 'f' then some (c.toNat - 87)
  else if 'A' ≤ c ∧ c ≤ 'F' then some (c.toNat - 55)
  else none

/-- The hexadecimal digit of a number below sixteen, as a small letter from ten on. -/
def hexDigit (n : Nat) : Char :=
  if n < 10 then Char.ofNat (48 + n) else Char.ofNat (87 + n)

/-- The decimal digit of a number below ten. -/
def digit (n : Nat) : Char := Char.ofNat (48 + n)

/-- The decimal digits of `n`, most significant first, without leading zeros. -/
def decimal (n : Nat) : Text :=
  if n < 10 then [digit n] else decimal (n / 10) ++ [digit (n % 10)]

/-- The decimal text of an integer, with a minus sign if it is negative. -/
def integer (i : Int) : Text :=
  if i < 0 then '-' :: decimal i.natAbs else decimal i.natAbs

/-- The number that continues `acc` by the digits `t`; none if one is no digit of the base. -/
def digits? (value? : Char → Option Nat) (base : Nat) (acc : Nat) : Text → Option Nat
  | [] => some acc
  | c :: t => (value? c).bind fun d => digits? value? base (base * acc + d) t

/-- Reads a non-empty run of decimal digits. -/
def decimal? (t : Text) : Option Nat :=
  if t.isEmpty then none else digits? digit? 10 0 t

/-- Reads a non-empty run of hexadecimal digits. -/
def hex? (t : Text) : Option Nat :=
  if t.isEmpty then none else digits? hexDigit? 16 0 t

/-- Reads an optional `+` and decimal digits whose value is at most `limit`. -/
def bounded? (limit : Nat) (t : Text) : Option Nat :=
  (decimal? ((dropStart? ['+'] t).getD t)).filter (· ≤ limit)

/-- Reads an optional sign and decimal digits. -/
def signed? (t : Text) : Option Int :=
  match dropStart? ['-'] t with
  | some rest => (decimal? rest).map fun n => -(n : Int)
  | none => (decimal? ((dropStart? ['+'] t).getD t)).map fun n => (n : Int)

/-! ## Parts of a numeral -/

/-- The leading decimal digits of a text, and the rest. -/
def leading (t : Text) : Text × Text := (t.takeWhile Char.isDigit, t.dropWhile Char.isDigit)

/-- A sign, true for minus, and the rest; no sign stands for plus. -/
def sign : Text → Bool × Text
  | '-' :: t => (true, t)
  | '+' :: t => (false, t)
  | t => (false, t)

/-- Reads an exponent, if its letter comes first; then there is at least one digit. The result
    is its sign and its digits. -/
def exponent? : Text → Option (Option (Bool × Text) × Text)
  | [] => some (none, [])
  | c :: t =>
    if c = 'e' ∨ c = 'E' then
      let (down, t) := sign t
      match leading t with
      | ([], _) => none
      | (ds, rest) => some (some (down, ds), rest)
    else some (none, c :: t)

/-! ## Limits -/

/-- The largest number of thirty-two bits. -/
def max32 : Nat := 0xFFFFFFFF

/-- The largest number of sixty-four bits. -/
def max64 : Nat := 0xFFFFFFFFFFFFFFFF

/-- Whether an integer fits a signed word of sixty-four bits. -/
def fitsSigned64 (i : Int) : Bool :=
  decide (-0x8000000000000000 ≤ i ∧ i < 0x8000000000000000)

/-! ## Reading what was written -/

theorem digits?_append (value? : Char → Option Nat) (base acc : Nat) (s t : Text) :
    digits? value? base acc (s ++ t) =
      (digits? value? base acc s).bind fun v => digits? value? base v t := by
  induction s generalizing acc with
  | nil => rfl
  | cons c s ih => cases h : value? c <;> simp [digits?, h, ih]

theorem digit?_digit {n : Nat} (h : n < 10) : digit? (digit n) = some n := by
  have : ∀ n : Fin 10, digit? (digit n) = some n.val := by decide
  exact this ⟨n, h⟩

theorem decimal_ne_nil (n : Nat) : decimal n ≠ [] := by
  rw [decimal]; split <;> simp

theorem digits?_decimal (n : Nat) : digits? digit? 10 0 (decimal n) = some n := by
  induction n using decimal.induct with
  | case1 n h => rw [decimal, if_pos h]; simp [digits?, digit?_digit h]
  | case2 n h ih =>
    rw [decimal, if_neg h, digits?_append, ih]
    simp [digits?, digit?_digit (Nat.mod_lt n (by decide : 10 > 0))]
    omega

theorem decimal?_decimal (n : Nat) : decimal? (decimal n) = some n := by
  rw [decimal?, if_neg (by simpa using decimal_ne_nil n), digits?_decimal]

theorem mem_decimal {n : Nat} {c : Char} (h : c ∈ decimal n) : ∃ d : Fin 10, c = digit d := by
  induction n using decimal.induct with
  | case1 n hn =>
    rw [decimal, if_pos hn] at h
    exact ⟨⟨n, hn⟩, List.mem_singleton.1 h⟩
  | case2 n hn ih =>
    rw [decimal, if_neg hn] at h
    rcases List.mem_append.1 h with h | h
    · exact ih h
    · exact ⟨⟨n % 10, Nat.mod_lt n (by decide)⟩, List.mem_singleton.1 h⟩

/-- The first digit of a number is a zero only if it is the number. -/
theorem decimal_eq_cons (n : Nat) :
    ∃ d t, d < 10 ∧ decimal n = digit d :: t ∧ (d = 0 → n = 0) := by
  induction n using decimal.induct with
  | case1 n h => exact ⟨n, [], h, by rw [decimal, if_pos h], id⟩
  | case2 n h ih =>
    obtain ⟨d, t, hd, he, hz⟩ := ih
    refine ⟨d, t ++ [digit (n % 10)], hd, by rw [decimal, if_neg h, he]; rfl, fun h0 => ?_⟩
    have := hz h0
    omega

/-- A number begins with no sign. -/
theorem dropStart?_decimal {c : Char} (h : digit? c = none) (n : Nat) :
    dropStart? [c] (decimal n) = none := by
  obtain ⟨d, t, hd, he, -⟩ := decimal_eq_cons n
  have hne : c ≠ digit d := by
    rintro rfl
    rw [digit?_digit hd] at h
    cases h
  rw [he, dropStart?, if_neg hne]

theorem signed?_integer (i : Int) : signed? (integer i) = some i := by
  unfold integer
  split
  · next h =>
    have hd : dropStart? ['-'] ('-' :: decimal i.natAbs) = some (decimal i.natAbs) := rfl
    simp only [signed?, hd, decimal?_decimal]
    exact congrArg some (show -((i.natAbs : Nat) : Int) = i by omega)
  · next h =>
    have hm : dropStart? ['-'] (decimal i.natAbs) = none := dropStart?_decimal (by decide) _
    have hp : dropStart? ['+'] (decimal i.natAbs) = none := dropStart?_decimal (by decide) _
    simp only [signed?, hm, hp, Option.getD_none, decimal?_decimal]
    exact congrArg some (show ((i.natAbs : Nat) : Int) = i by omega)

end SessionGateway.Numeral
