/-
  The Base64 round trip — octets that were written as characters are read back.

  * `decode?_encode`: reading undoes writing;
  * `mem_encode`: what is written are characters of the alphabet and padding.
-/
import SessionGateway.Text.Base64

namespace SessionGateway.Base64

/-! ## Symbols -/

theorem value?_symbol_of_lt {n : Nat} (h : n < 64) : value? (symbol n) = some n :=
  value?_symbol ⟨n, h⟩

theorem symbol_ne_pad {n : Nat} (h : n < 64) : symbol n ≠ '=' := by
  have hs : ∀ n : Fin 64, symbol n.val ≠ '=' := by decide
  exact hs ⟨n, h⟩

/-- What is written are the symbols of numbers below sixty-four, and padding. -/
theorem mem_encode {bs : Bytes} {c : Char} (h : c ∈ encode bs) :
    c = '=' ∨ ∃ n : Fin 64, c = symbol n.val := by
  have hs : ∀ n, n < 64 → c = symbol n → ∃ n : Fin 64, c = symbol n.val :=
    fun n hn hc => ⟨⟨n, hn⟩, hc⟩
  induction bs using encode.induct with
  | case1 => cases h
  | case2 a =>
    have ha := a.toNat_lt
    simp only [encode, List.mem_cons, List.not_mem_nil, or_false] at h
    rcases h with h | h | h | h
    · exact .inr (hs _ (by omega) h)
    · exact .inr (hs _ (by omega) h)
    · exact .inl h
    · exact .inl h
  | case3 a b =>
    have ha := a.toNat_lt
    have hb := b.toNat_lt
    simp only [encode, List.mem_cons, List.not_mem_nil, or_false] at h
    rcases h with h | h | h | h
    · exact .inr (hs _ (by omega) h)
    · exact .inr (hs _ (by omega) h)
    · exact .inr (hs _ (by omega) h)
    · exact .inl h
  | case4 a b c' rest ih =>
    have ha := a.toNat_lt
    have hb := b.toNat_lt
    have hc := c'.toNat_lt
    simp only [encode, List.mem_cons] at h
    rcases h with h | h | h | h | h
    · exact .inr (hs _ (by omega) h)
    · exact .inr (hs _ (by omega) h)
    · exact .inr (hs _ (by omega) h)
    · exact .inr (hs _ (by omega) h)
    · exact ih h

/-! ## Groups -/

theorem octet_eq (b : UInt8) {n : Nat} (h : n = b.toNat) : octet n = b := by
  rw [octet, h, UInt8.ofNat_toNat]

theorem lastGroup?_one (a : UInt8) :
    lastGroup? (symbol (a.toNat / 4)) (symbol (a.toNat % 4 * 16)) '=' '=' = some [a] := by
  have ha := a.toNat_lt
  have h₁ : a.toNat / 4 < 64 := by omega
  have h₂ : a.toNat % 4 * 16 < 64 := by omega
  simp only [lastGroup?, value?_symbol_of_lt h₁, value?_symbol_of_lt h₂, Option.bind_eq_bind,
    Option.bind_some, if_true]
  rw [if_pos (by omega), octet_eq a (by omega)]

theorem lastGroup?_two (a b : UInt8) :
    lastGroup? (symbol (a.toNat / 4)) (symbol (a.toNat % 4 * 16 + b.toNat / 16))
      (symbol (b.toNat % 16 * 4)) '=' = some [a, b] := by
  have ha := a.toNat_lt
  have hb := b.toNat_lt
  have h₁ : a.toNat / 4 < 64 := by omega
  have h₂ : a.toNat % 4 * 16 + b.toNat / 16 < 64 := by omega
  have h₃ : b.toNat % 16 * 4 < 64 := by omega
  simp only [lastGroup?, value?_symbol_of_lt h₁, value?_symbol_of_lt h₂, value?_symbol_of_lt h₃,
    symbol_ne_pad h₃, Option.bind_eq_bind, Option.bind_some, if_true, if_false]
  rw [if_pos (by omega), octet_eq a (by omega), octet_eq b (by omega)]

section
variable (a b c : UInt8)

theorem value?_first : value? (symbol (a.toNat / 4)) = some (a.toNat / 4) :=
  value?_symbol_of_lt (by have := a.toNat_lt; omega)

theorem value?_second :
    value? (symbol (a.toNat % 4 * 16 + b.toNat / 16)) = some (a.toNat % 4 * 16 + b.toNat / 16) :=
  value?_symbol_of_lt (by have := b.toNat_lt; omega)

theorem value?_third :
    value? (symbol (b.toNat % 16 * 4 + c.toNat / 64)) = some (b.toNat % 16 * 4 + c.toNat / 64) :=
  value?_symbol_of_lt (by have := c.toNat_lt; omega)

theorem value?_fourth : value? (symbol (c.toNat % 64)) = some (c.toNat % 64) :=
  value?_symbol_of_lt (by omega)

theorem group_eq :
    group (a.toNat / 4) (a.toNat % 4 * 16 + b.toNat / 16) (b.toNat % 16 * 4 + c.toNat / 64)
      (c.toNat % 64) = [a, b, c] := by
  have ha := a.toNat_lt
  have hb := b.toNat_lt
  have hc := c.toNat_lt
  rw [group, octet_eq a (by omega), octet_eq b (by omega), octet_eq c (by omega)]

end

/-- **Reading undoes writing.** -/
@[simp] theorem decode?_encode (bs : Bytes) : decode? (encode bs) = some bs := by
  induction bs using encode.induct with
  | case1 => rfl
  | case2 a => exact lastGroup?_one a
  | case3 a b => exact lastGroup?_two a b
  | case4 a b c rest ih =>
    have hgroup := group_eq a b c
    have hpad : symbol (c.toNat % 64) ≠ '=' := symbol_ne_pad (by omega)
    rw [encode]
    cases hr : encode rest with
    | nil =>
      -- the last group is full
      rw [hr] at ih
      cases ih
      simp only [decode?, lastGroup?, value?_first, value?_second, value?_third, value?_fourth,
        if_neg hpad, Option.bind_eq_bind, Option.bind_some, hgroup]
    | cons x xs =>
      rw [hr] at ih
      simp only [decode?, value?_first, value?_second, value?_third, value?_fourth, ih,
        Option.bind_eq_bind, Option.bind_some, hgroup]
      rfl

end SessionGateway.Base64
