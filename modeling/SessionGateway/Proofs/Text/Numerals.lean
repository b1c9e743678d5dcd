/-
  Numerals read back — the texts that stand for a number.

  A number has one numeral without a zero in front.  Where zeros and a plus sign may stand before
  it, these are all that a text may have besides.

  * `exists_eq_decimal`: digits without a zero in front are the numeral of a number;
  * `decimal?_eq_some_iff`: digits are read as the number whose numeral stands behind the zeros;
  * `bounded?_eq_some_iff`: the same for a number with a limit and a plus sign that may be there.
-/
import Mathlib.Data.List.Induction
import SessionGateway.Text.Numeral

namespace SessionGateway.Numeral

theorem eq_digit_of_isDigit {c : Char} (h : c.isDigit = true) : ∃ d < 10, c = digit d := by
  have hrange := Bool.and_eq_true_iff.1 h
  simp only [decide_eq_true_eq, UInt32.le_iff_toNat_le, ge_iff_le] at hrange
  have hlow : 48 ≤ c.toNat := hrange.1
  have hhigh : c.toNat ≤ 57 := hrange.2
  refine ⟨c.toNat - 48, by omega, ?_⟩
  rw [digit, Nat.add_sub_of_le hlow, Char.ofNat_toNat]

theorem digit?_eq_some_iff {c : Char} {d : Nat} : digit? c = some d ↔ d < 10 ∧ c = digit d := by
  constructor
  · intro h
    rw [digit?, Option.ite_none_right_eq_some] at h
    have hdigit : c.isDigit = true := by
      rw [Char.isDigit, Bool.and_eq_true, decide_eq_true_eq, decide_eq_true_eq]
      exact h.1
    obtain ⟨e, he, rfl⟩ := eq_digit_of_isDigit hdigit
    have hvalue := digit?_digit he
    rw [digit?, if_pos h.1, h.2] at hvalue
    cases hvalue
    exact ⟨he, rfl⟩
  · rintro ⟨hd, rfl⟩
    exact digit?_digit hd

/-! ## Numerals without a zero in front -/

/-- A digit behind the numeral of a positive number makes the numeral of another. -/
theorem decimal_append_digit {m d : Nat} (hm : 0 < m) (hd : d < 10) :
    decimal m ++ [digit d] = decimal (10 * m + d) := by
  have hdiv : (10 * m + d) / 10 = m := by omega
  have hmod : (10 * m + d) % 10 = d := by omega
  rw [decimal.eq_1 (10 * m + d), if_neg (by omega), hdiv, hmod]

theorem decimal_of_lt {d : Nat} (hd : d < 10) : decimal d = [digit d] := by
  rw [decimal, if_pos hd]

theorem exists_decimal_append {m : Nat} (hm : 0 < m) {ds : Text}
    (hds : ∀ c ∈ ds, c.isDigit = true) : ∃ n, decimal m ++ ds = decimal n := by
  induction ds generalizing m with
  | nil => exact ⟨m, List.append_nil _⟩
  | cons c ds ih =>
    rw [List.forall_mem_cons] at hds
    obtain ⟨d, hd, rfl⟩ := eq_digit_of_isDigit hds.1
    obtain ⟨n, hn⟩ := ih (m := 10 * m + d) (by omega) hds.2
    exact ⟨n, by rw [← hn, ← decimal_append_digit hm hd, List.append_assoc, List.singleton_append]⟩

/-- **Digits without a zero in front are a numeral.** -/
theorem exists_eq_decimal {ds : Text} (hne : ds ≠ []) (hzero : ∀ d u, ds ≠ '0' :: d :: u)
    (hds : ∀ c ∈ ds, c.isDigit = true) : ∃ n, ds = decimal n := by
  obtain _ | ⟨c, u⟩ := ds
  · exact absurd rfl hne
  rw [List.forall_mem_cons] at hds
  obtain ⟨d, hd, rfl⟩ := eq_digit_of_isDigit hds.1
  rcases Nat.eq_zero_or_pos d with rfl | hpos
  · obtain _ | ⟨e, u⟩ := u
    · exact ⟨0, (decimal_of_lt hd).symm⟩
    · exact absurd rfl (hzero e u)
  · obtain ⟨n, hn⟩ := exists_decimal_append hpos hds.2
    exact ⟨n, by rw [← hn, decimal_of_lt hd, List.singleton_append]⟩

/-! ## Numerals behind zeros -/

/-- The numeral of a number behind some zeros. -/
def padded (zeros n : Nat) : Text := List.replicate zeros '0' ++ decimal n

theorem digits?_padded (zeros n : Nat) : digits? digit? 10 0 (padded zeros n) = some n := by
  induction zeros with
  | zero => exact digits?_decimal n
  | succ zeros ih => exact ih

/-- Digits that are read as a number are its numeral behind some zeros. -/
theorem exists_eq_padded {t : Text} {n : Nat} (hne : t ≠ [])
    (h : digits? digit? 10 0 t = some n) : ∃ zeros, t = padded zeros n := by
  -- the last digit is taken off: what is before it is read as the number without it
  induction t using List.reverseRecOn generalizing n with
  | nil => exact absurd rfl hne
  | append_singleton t c ih =>
    rw [digits?_append, Option.bind_eq_some_iff] at h
    obtain ⟨m, hm, hlast⟩ := h
    rw [digits?, Option.bind_eq_some_iff] at hlast
    obtain ⟨d, hc, he⟩ := hlast
    obtain ⟨hd, rfl⟩ := digit?_eq_some_iff.1 hc
    cases he
    cases t with
    | nil =>
      cases hm
      rw [Nat.mul_zero, Nat.zero_add]
      exact ⟨0, (decimal_of_lt hd).symm⟩
    | cons e t =>
      obtain ⟨zeros, hzeros⟩ := ih (List.cons_ne_nil e t) hm
      rw [hzeros]
      rcases Nat.eq_zero_or_pos m with rfl | hpos
      · have hzero : decimal 0 = ['0'] := decimal_of_lt (by decide)
        refine ⟨zeros + 1, ?_⟩
        rw [padded, padded, hzero, Nat.mul_zero, Nat.zero_add, decimal_of_lt hd,
          List.replicate_succ']
      · exact ⟨zeros, by rw [padded, List.append_assoc, decimal_append_digit hpos hd, padded]⟩

/-- **What is read in decimal digits** is a numeral behind some zeros. -/
theorem decimal?_eq_some_iff {t : Text} {n : Nat} :
    decimal? t = some n ↔ ∃ zeros, t = padded zeros n := by
  rw [decimal?, Option.ite_none_left_eq_some]
  constructor
  · rintro ⟨hne, h⟩
    exact exists_eq_padded (fun ht => hne (List.isEmpty_iff.2 ht)) h
  · rintro ⟨zeros, rfl⟩
    refine ⟨?_, digits?_padded zeros n⟩
    simp [padded, decimal_ne_nil]

theorem dropStart?_padded (zeros n : Nat) : dropStart? ['+'] (padded zeros n) = none := by
  cases zeros with
  | zero => exact dropStart?_decimal (by decide) n
  | succ zeros => rfl

/-- **What is read up to a limit** is a numeral behind some zeros, and a plus sign before them or
    none. -/
theorem bounded?_eq_some_iff {limit n : Nat} {t : Text} :
    bounded? limit t = some n ↔
      n ≤ limit ∧ ∃ zeros, t = padded zeros n ∨ t = '+' :: padded zeros n := by
  rw [bounded?, Option.filter_eq_some_iff, decimal?_eq_some_iff, decide_eq_true_eq, and_comm]
  refine and_congr_right fun _ => exists_congr fun zeros => ?_
  cases hplus : dropStart? ['+'] t with
  | none =>
    have hne : t ≠ '+' :: padded zeros n := by
      rintro rfl
      cases (dropStart?_self_append ['+'] (padded zeros n)).symm.trans hplus
    exact (or_iff_left hne).symm
  | some rest =>
    obtain rfl : t = '+' :: rest := dropStart?_eq_some_iff.1 hplus
    have hne : '+' :: rest ≠ padded zeros n := by
      intro h
      rw [h, dropStart?_padded] at hplus
      cases hplus
    rw [or_iff_right hne, Option.getD_some, List.cons.injEq, and_iff_right rfl]

end SessionGateway.Numeral
