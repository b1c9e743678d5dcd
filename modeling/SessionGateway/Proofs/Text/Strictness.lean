/-
  Strict reading — octets and Base64 have one written form each.

  The readers accept no second spelling: UTF-8 has only the shortest form of every character, and
  Base64 only full groups, whose unused bits are zero.

  * `Utf8.decode?_eq_some_iff`: octets are read as a text exactly if they are what it is written
    as;
  * `Base64.decode?_eq_some_iff`: and so is a text as octets.
-/
import SessionGateway.Proofs.Text.Base64
import SessionGateway.Proofs.Text.Utf8

namespace SessionGateway

/-! ## UTF-8 -/

namespace Utf8

variable {lead b c d : UInt8} {bs rest : Bytes}

theorem octet_eq {n : Nat} (h : n = b.toNat) : octet n = b := by
  rw [octet, h, UInt8.ofNat_toNat]

theorem isTail_iff : isTail b = true ↔ 0x80 ≤ b.toNat ∧ b.toNat ≤ 0xBF := by
  simp [isTail, UInt8.le_iff_toNat_le]

/-- What may stand second continues a character, and behind four of the leading octets only some of
    the octets that do so may. -/
theorem bounds_of_isSecond (h : isSecond lead b = true) :
    (0x80 ≤ b.toNat ∧ b.toNat ≤ 0xBF) ∧
      (lead.toNat = 0xE0 → 0xA0 ≤ b.toNat) ∧ (lead.toNat = 0xED → b.toNat ≤ 0x9F) ∧
      (lead.toNat = 0xF0 → 0x90 ≤ b.toNat) ∧ (lead.toNat = 0xF4 → b.toNat ≤ 0x8F) := by
  simp only [isSecond, isTail, beq_iff_eq, ← UInt8.toNat_inj] at h
  simp only [UInt8.reduceToNat] at h
  repeat' split at h
  all_goals
    simp only [Bool.and_eq_true, decide_eq_true_eq, UInt8.le_iff_toNat_le, UInt8.reduceToNat] at h
    omega

theorem toNat_ofNat {n : Nat} (h : n < 0xD800 ∨ 0xE000 ≤ n ∧ n < 0x110000) :
    (Char.ofNat n).toNat = n := by
  have hvalid : n.isValidChar := h.imp id fun h => ⟨by omega, h.2⟩
  rw [Char.ofNat, dif_pos hvalid]
  rfl

theorem encodeChar_one (hl : lead < 0x80) : encodeChar (Char.ofNat lead.toNat) = [lead] := by
  simp only [UInt8.lt_iff_toNat_lt, UInt8.reduceToNat] at hl
  rw [encodeChar, toNat_ofNat (by omega), if_pos hl, octet_eq rfl]

theorem encodeChar_two (hl : ¬ lead < 0xC2) (hl' : lead < 0xE0) (hb : isTail b = true) :
    encodeChar (Char.ofNat (lead.toNat % 32 * 64 + low b)) = [lead, b] := by
  simp only [UInt8.lt_iff_toNat_lt, UInt8.reduceToNat] at hl hl'
  rw [isTail_iff] at hb
  rw [encodeChar, low, toNat_ofNat (by omega), if_neg (by omega), if_pos (by omega),
    octet_eq (b := lead) (by omega), octet_eq (b := b) (by omega)]

theorem encodeChar_three (hl : ¬ lead < 0xE0) (hl' : lead < 0xF0) (hb : isSecond lead b = true)
    (hc : isTail c = true) :
    encodeChar (Char.ofNat (lead.toNat % 16 * 4096 + low b * 64 + low c)) = [lead, b, c] := by
  simp only [UInt8.lt_iff_toNat_lt, UInt8.reduceToNat] at hl hl'
  obtain ⟨hb, hE0, hED, -, -⟩ := bounds_of_isSecond hb
  rw [isTail_iff] at hc
  rw [encodeChar, low, low, toNat_ofNat (by omega), if_neg (by omega), if_neg (by omega),
    if_pos (by omega), octet_eq (b := lead) (by omega), octet_eq (b := b) (by omega),
    octet_eq (b := c) (by omega)]

theorem encodeChar_four (hl : ¬ lead < 0xF0) (hl' : lead < 0xF5) (hb : isSecond lead b = true)
    (hc : isTail c = true) (hd : isTail d = true) :
    encodeChar (Char.ofNat (lead.toNat % 8 * 262144 + low b * 4096 + low c * 64 + low d)) =
      [lead, b, c, d] := by
  simp only [UInt8.lt_iff_toNat_lt, UInt8.reduceToNat] at hl hl'
  obtain ⟨hb, -, -, hF0, hF4⟩ := bounds_of_isSecond hb
  rw [isTail_iff] at hc hd
  rw [encodeChar, low, low, low, toNat_ofNat (by omega), if_neg (by omega), if_neg (by omega),
    if_neg (by omega), octet_eq (b := lead) (by omega), octet_eq (b := b) (by omega),
    octet_eq (b := c) (by omega), octet_eq (b := d) (by omega)]

/-- **What is read as a character are its octets.** -/
theorem eq_encodeChar_append {char : Char} (h : head lead bs = .char char rest) :
    lead :: bs = encodeChar char ++ rest := by
  revert h
  -- of the ways to begin, those that are broken pieces give no character
  fun_cases head lead bs <;> intro h <;> cases h
  case case1.refl hl => rw [encodeChar_one hl]; rfl
  case case3.refl _ hl hl' b hb => rw [encodeChar_two hl hl' hb]; rfl
  case case6.refl _ _ hl hl' b c hb hc => rw [encodeChar_three hl hl' hb hc]; rfl
  case case12.refl _ _ _ hl hl' b c d hb hc hd => rw [encodeChar_four hl hl' hb hc hd]; rfl

theorem decodeOnto?_eq_some {done t : Text} (h : decodeOnto? done bs = some t) :
    ∃ more, t = done.reverse ++ more ∧ bs = encode more := by
  induction done, bs using decodeOnto?.induct with
  | case1 done =>
    rw [decodeOnto?, Option.some.injEq] at h
    exact ⟨[], by rw [← h, List.append_nil], rfl⟩
  | case2 done b bs char rest hh _ ih =>
    rw [decodeOnto?_cons hh] at h
    obtain ⟨more, rfl, rfl⟩ := ih h
    exact ⟨char :: more, by rw [List.reverse_cons, List.append_assoc]; rfl, eq_encodeChar_append hh⟩
  | case3 done b bs rest hh =>
    rw [decodeOnto?] at h
    split at h
    · next hh' => cases hh.symm.trans hh'
    · cases h

/-- **Octets are read as a text exactly if they are what it is written as.** -/
theorem decode?_eq_some_iff {t : Text} : decode? bs = some t ↔ bs = encode t := by
  constructor
  · intro h
    obtain ⟨more, rfl, rfl⟩ := decodeOnto?_eq_some h
    rfl
  · rintro rfl
    exact decode?_encode t

end Utf8

/-! ## Base64 -/

namespace Base64

variable {p q r s : Nat} {t : Text} {bs : Bytes}

theorem toNat_octet {n : Nat} (h : n < 256) : (octet n).toNat = n := by
  rw [octet, UInt8.toNat_ofNat']
  omega

/-- A character of the alphabet is the symbol of its value. -/
theorem symbol_of_value? {c : Char} {n : Nat} (h : value? c = some n) : n < 64 ∧ symbol n = c := by
  have hle : ∀ {a b : Char}, a ≤ b ↔ a.toNat ≤ b.toNat := UInt32.le_iff_toNat_le
  have hc : ∀ k, k = c.toNat → Char.ofNat k = c := by
    rintro k rfl
    exact Char.ofNat_toNat c
  unfold value? at h
  simp only [hle, Char.reduceToNat] at h
  split at h
  · cases h
    exact ⟨by omega, by rw [symbol, if_pos (by omega), hc _ (by omega)]⟩
  split at h
  · cases h
    exact ⟨by omega, by rw [symbol, if_neg (by omega), if_pos (by omega), hc _ (by omega)]⟩
  split at h
  · cases h
    exact ⟨by omega, by
      rw [symbol, if_neg (by omega), if_neg (by omega), if_pos (by omega), hc _ (by omega)]⟩
  split at h
  · next hplus =>
    cases h
    exact ⟨by decide, hplus.symm⟩
  split at h
  · next hslash =>
    cases h
    exact ⟨by decide, hslash.symm⟩
  · cases h

/-! ### Groups -/

theorem encode_group_append (hp : p < 64) (hq : q < 64) (hr : r < 64) (hs : s < 64) (bs : Bytes) :
    encode (group p q r s ++ bs) = symbol p :: symbol q :: symbol r :: symbol s :: encode bs := by
  have h₁ := toNat_octet (n := p * 4 + q / 16) (by omega)
  have h₂ := toNat_octet (n := q % 16 * 16 + r / 4) (by omega)
  have h₃ := toNat_octet (n := r % 4 * 64 + s) (by omega)
  simp only [group, List.cons_append, List.nil_append, encode, h₁, h₂, h₃, List.cons.injEq,
    and_true]
  refine ⟨congrArg symbol ?_, congrArg symbol ?_, congrArg symbol ?_, congrArg symbol ?_⟩ <;> omega

theorem encode_two (hp : p < 64) (hq : q < 64) (hr : r < 64) (hzero : r % 4 = 0) :
    encode [octet (p * 4 + q / 16), octet (q % 16 * 16 + r / 4)] =
      [symbol p, symbol q, symbol r, '='] := by
  have h₁ := toNat_octet (n := p * 4 + q / 16) (by omega)
  have h₂ := toNat_octet (n := q % 16 * 16 + r / 4) (by omega)
  simp only [encode, h₁, h₂, List.cons.injEq, and_true]
  refine ⟨congrArg symbol ?_, congrArg symbol ?_, congrArg symbol ?_⟩ <;> omega

theorem encode_one (hp : p < 64) (hq : q < 64) (hzero : q % 16 = 0) :
    encode [octet (p * 4 + q / 16)] = [symbol p, symbol q, '=', '='] := by
  have h₁ := toNat_octet (n := p * 4 + q / 16) (by omega)
  simp only [encode, h₁, List.cons.injEq, and_true]
  exact ⟨congrArg symbol (by omega), congrArg symbol (by omega)⟩

/-- What the last group is read as is written as that group: padding stands only at its end, and the
    bits that it leaves unused are zero. -/
theorem encode_lastGroup? {c₁ c₂ c₃ c₄ : Char} (h : lastGroup? c₁ c₂ c₃ c₄ = some bs) :
    encode bs = [c₁, c₂, c₃, c₄] := by
  simp only [lastGroup?, Option.bind_eq_bind, Option.bind_eq_some_iff] at h
  obtain ⟨p, hvp, q, hvq, h⟩ := h
  obtain ⟨hp, rfl⟩ := symbol_of_value? hvp
  obtain ⟨hq, rfl⟩ := symbol_of_value? hvq
  split at h
  · next hpad₄ =>
    split at h
    · next hpad₃ =>
      split at h
      · next hzero =>
        cases h
        rw [encode_one hp hq hzero, hpad₃, hpad₄]
      · cases h
    · obtain ⟨r, hvr, hlast⟩ := Option.bind_eq_some_iff.1 h
      obtain ⟨hr, rfl⟩ := symbol_of_value? hvr
      split at hlast
      · next hzero =>
        cases hlast
        rw [encode_two hp hq hr hzero, hpad₄]
      · cases hlast
  · obtain ⟨r, hvr, h⟩ := Option.bind_eq_some_iff.1 h
    obtain ⟨s, hvs, hlast⟩ := Option.bind_eq_some_iff.1 h
    obtain ⟨hr, rfl⟩ := symbol_of_value? hvr
    obtain ⟨hs, rfl⟩ := symbol_of_value? hvs
    cases hlast
    rw [← List.append_nil (group p q r s), encode_group_append hp hq hr hs]
    rfl

/-- **What is read is written as it was.** -/
theorem encode_of_decode? (h : decode? t = some bs) : encode bs = t := by
  induction t using decode?.induct generalizing bs with
  | case1 =>
    cases h
    rfl
  | case2 c₁ c₂ c₃ c₄ => exact encode_lastGroup? h
  | case3 c₁ c₂ c₃ c₄ rest hrest ih =>
    rw [decode?] at h
    · simp only [Option.bind_eq_bind, Option.bind_eq_some_iff] at h
      obtain ⟨p, hvp, q, hvq, r, hvr, s, hvs, after, hafter, h⟩ := h
      obtain ⟨hp, rfl⟩ := symbol_of_value? hvp
      obtain ⟨hq, rfl⟩ := symbol_of_value? hvq
      obtain ⟨hr, rfl⟩ := symbol_of_value? hvr
      obtain ⟨hs, rfl⟩ := symbol_of_value? hvs
      cases h
      rw [encode_group_append hp hq hr hs, ih hafter]
    · exact hrest
  | case4 t =>
    rw [decode?] at h
    · cases h
    all_goals assumption

/-- **A text is read as octets exactly if it is what they are written as.** -/
theorem decode?_eq_some_iff : decode? t = some bs ↔ t = encode bs :=
  ⟨fun h => (encode_of_decode? h).symm, fun h => h ▸ decode?_encode bs⟩

end Base64

end SessionGateway
