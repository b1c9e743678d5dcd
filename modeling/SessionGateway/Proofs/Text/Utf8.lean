/-
  The UTF-8 round trip — text that was written as octets is read back.

  * `head_encodeChar`: a byte string that begins with the octets of a character begins with
    that character, and with no other (`encodeChar_append_inj`);
  * `decode?_encode`, `decodeLossy_encode`: so both readers give back the text;
  * `encode_ascii`: ASCII text is its own octets, and an octet below 128 comes from such a
    character only (`mem_encode_of_lt`), and no other text has as many octets as characters
    (`length_encode`).
-/
import SessionGateway.Text.Utf8

namespace SessionGateway

/-- What is said of the characters of a text is decided for these one by one, and not for all the
    characters that there are. -/
instance (priority := 2000) Text.decidableForallMem (P : Char → Prop) [DecidablePred P] (t : Text) :
    Decidable (∀ c ∈ t, P c) :=
  List.decidableBAll P t

namespace Utf8

/-! ## Octets -/

section
variable {n : Nat} (h : n < 256) (b : UInt8)
include h

theorem toNat_octet : (octet n).toNat = n := by
  rw [octet, UInt8.toNat_ofNat']
  omega

theorem octet_lt_iff : octet n < b ↔ n < b.toNat := by
  rw [UInt8.lt_iff_toNat_lt, toNat_octet h]

theorem le_octet_iff : b ≤ octet n ↔ b.toNat ≤ n := by
  rw [UInt8.le_iff_toNat_le, toNat_octet h]

theorem octet_le_iff : octet n ≤ b ↔ n ≤ b.toNat := by
  rw [UInt8.le_iff_toNat_le, toNat_octet h]

theorem octet_eq_iff : octet n = b ↔ n = b.toNat := by
  rw [← UInt8.toNat_inj, toNat_octet h]

end

section
variable {n : Nat}

theorem isTail_octet (h : n < 64) : isTail (octet (0x80 + n)) = true := by
  have h8 : 0x80 + n < 256 := by omega
  simp [isTail, le_octet_iff h8, octet_le_iff h8]
  omega

theorem low_octet (h : n < 64) : low (octet (0x80 + n)) = n := by
  rw [low, toNat_octet (by omega)]
  omega

/-- What stands behind a leading octet continues a character; behind four of them, only some of
    the octets that do so may stand. -/
theorem isSecond_octet {lead : Nat} (hl : lead < 256) (h : n < 64)
    (hE0 : lead = 0xE0 → 0x20 ≤ n) (hED : lead = 0xED → n < 0x20)
    (hF0 : lead = 0xF0 → 0x10 ≤ n) (hF4 : lead = 0xF4 → n < 0x10) :
    isSecond (octet lead) (octet (0x80 + n)) = true := by
  have h8 : 0x80 + n < 256 := by omega
  simp only [isSecond, isTail, beq_iff_eq, octet_eq_iff hl, le_octet_iff h8, octet_le_iff h8]
  simp only [UInt8.reduceToNat]
  repeat' split
  all_goals
    simp only [Bool.and_eq_true, decide_eq_true_eq]
    omega

/-! ## Characters -/

theorem head_one (h : n < 0x80) (bs : Bytes) : head (octet n) bs = .char (Char.ofNat n) bs := by
  have h8 : n < 256 := by omega
  unfold head
  rw [if_pos (by simpa [octet_lt_iff h8] using h), toNat_octet h8]

theorem head_two (h : 0x80 ≤ n) (h' : n < 0x800) (bs : Bytes) :
    head (octet (0xC0 + n / 64)) (octet (0x80 + n % 64) :: bs) = .char (Char.ofNat n) bs := by
  have h8 : 0xC0 + n / 64 < 256 := by omega
  have h64 : n % 64 < 64 := Nat.mod_lt _ (by decide)
  unfold head
  rw [if_neg (by simp [octet_lt_iff h8]; omega), if_neg (by simp [octet_lt_iff h8]; omega),
    if_pos (by simp [octet_lt_iff h8]; omega)]
  simp only [isTail_octet h64, if_true, low_octet h64, toNat_octet h8]
  congr 2
  omega

theorem head_three (h : 0x800 ≤ n) (h' : n < 0x10000) (hs : n < 0xD800 ∨ 0xE000 ≤ n)
    (bs : Bytes) :
    head (octet (0xE0 + n / 4096)) (octet (0x80 + n / 64 % 64) :: octet (0x80 + n % 64) :: bs) =
      .char (Char.ofNat n) bs := by
  have h8 : 0xE0 + n / 4096 < 256 := by omega
  have h64 : n % 64 < 64 := Nat.mod_lt _ (by decide)
  have h64' : n / 64 % 64 < 64 := Nat.mod_lt _ (by decide)
  have hsecond : isSecond (octet (0xE0 + n / 4096)) (octet (0x80 + n / 64 % 64)) = true :=
    isSecond_octet h8 h64' (by omega) (by omega) (by omega) (by omega)
  unfold head
  rw [if_neg (by simp [octet_lt_iff h8]; omega), if_neg (by simp [octet_lt_iff h8]; omega),
    if_neg (by simp [octet_lt_iff h8]), if_pos (by simp [octet_lt_iff h8]; omega)]
  simp only [hsecond, isTail_octet h64, if_true, low_octet h64, low_octet h64', toNat_octet h8]
  congr 2
  omega

theorem head_four (h : 0x10000 ≤ n) (h' : n < 0x110000) (bs : Bytes) :
    head (octet (0xF0 + n / 262144))
        (octet (0x80 + n / 4096 % 64) :: octet (0x80 + n / 64 % 64) :: octet (0x80 + n % 64) ::
          bs) =
      .char (Char.ofNat n) bs := by
  have h8 : 0xF0 + n / 262144 < 256 := by omega
  have h64 : n % 64 < 64 := Nat.mod_lt _ (by decide)
  have h64' : n / 64 % 64 < 64 := Nat.mod_lt _ (by decide)
  have h64'' : n / 4096 % 64 < 64 := Nat.mod_lt _ (by decide)
  have hsecond : isSecond (octet (0xF0 + n / 262144)) (octet (0x80 + n / 4096 % 64)) = true :=
    isSecond_octet h8 h64'' (by omega) (by omega) (by omega) (by omega)
  unfold head
  rw [if_neg (by simp [octet_lt_iff h8]; omega), if_neg (by simp [octet_lt_iff h8]; omega),
    if_neg (by simp [octet_lt_iff h8]; omega), if_neg (by simp [octet_lt_iff h8]),
    if_pos (by simp [octet_lt_iff h8]; omega)]
  simp only [hsecond, isTail_octet h64, isTail_octet h64', if_true, low_octet h64,
    low_octet h64', low_octet h64'', toNat_octet h8]
  congr 2
  omega

end

/-- **The octets of a character are read as that character**, whatever follows them. -/
theorem head_encodeChar (c : Char) (bs : Bytes) :
    ∃ b rest, encodeChar c ++ bs = b :: rest ∧ head b rest = .char c bs := by
  have hc : Char.ofNat c.toNat = c := Char.ofNat_toNat c
  have hv : c.toNat < 0xD800 ∨ 0xE000 ≤ c.toNat ∧ c.toNat < 0x110000 :=
    c.valid.imp id fun h => ⟨h.1, h.2⟩
  rw [show Head.char c bs = .char (Char.ofNat c.toNat) bs by rw [hc]]
  unfold encodeChar
  simp only
  split
  · next h => exact ⟨_, _, rfl, head_one h bs⟩
  split
  · next h h' => exact ⟨_, _, rfl, head_two (by omega) h' bs⟩
  split
  · next h h' => exact ⟨_, _, rfl, head_three (by omega) h' (by omega) bs⟩
  · next h => exact ⟨_, _, rfl, head_four (by omega) (by omega) bs⟩

/-- **No character begins like another**: the octets tell which one comes first. -/
theorem encodeChar_append_inj {c d : Char} {bs ds : Bytes}
    (h : encodeChar c ++ bs = encodeChar d ++ ds) : c = d ∧ bs = ds := by
  obtain ⟨b, rest, hc, hhead⟩ := head_encodeChar c bs
  obtain ⟨b', rest', hd, hhead'⟩ := head_encodeChar d ds
  obtain ⟨rfl, rfl⟩ := List.cons_eq_cons.1 (hc.symm.trans (h.trans hd))
  exact Head.char.inj (hhead.symm.trans hhead')

/-! ## Texts -/

theorem decodeOnto?_cons {b : UInt8} {bs rest : Bytes} {c : Char} (h : head b bs = .char c rest)
    (done : Text) : decodeOnto? done (b :: bs) = decodeOnto? (c :: done) rest := by
  rw [decodeOnto?]
  split
  · next h' =>
    cases h.symm.trans h'
    rfl
  · next h' => cases h.symm.trans h'

theorem decodeLossyOnto_cons {b : UInt8} {bs rest : Bytes} {c : Char}
    (h : head b bs = .char c rest) (done : Text) :
    decodeLossyOnto done (b :: bs) = decodeLossyOnto (c :: done) rest := by
  rw [decodeLossyOnto]
  split
  · next h' =>
    cases h.symm.trans h'
    rfl
  · next h' => cases h.symm.trans h'

theorem decodeOnto?_encode (t done : Text) :
    decodeOnto? done (encode t) = some (done.reverse ++ t) := by
  induction t generalizing done with
  | nil => simp [encode, decodeOnto?]
  | cons c t ih =>
    obtain ⟨b, rest, he, hh⟩ := head_encodeChar c (encode t)
    rw [encode, List.flatMap_cons, ← encode, he, decodeOnto?_cons hh, ih, List.reverse_cons,
      List.append_assoc]
    rfl

theorem decodeLossyOnto_encode (t done : Text) :
    decodeLossyOnto done (encode t) = done.reverse ++ t := by
  induction t generalizing done with
  | nil => simp [encode, decodeLossyOnto]
  | cons c t ih =>
    obtain ⟨b, rest, he, hh⟩ := head_encodeChar c (encode t)
    rw [encode, List.flatMap_cons, ← encode, he, decodeLossyOnto_cons hh, ih, List.reverse_cons,
      List.append_assoc]
    rfl

/-- **Text that was written is read back.** -/
@[simp] theorem decode?_encode (t : Text) : decode? (encode t) = some t := decodeOnto?_encode t []

@[simp] theorem decodeLossy_encode (t : Text) : decodeLossy (encode t) = t :=
  decodeLossyOnto_encode t []

/-! ## ASCII -/

@[simp] theorem encode_append (s t : Text) : encode (s ++ t) = encode s ++ encode t :=
  List.flatMap_append

theorem encode_ascii {t : Text} (h : ∀ c ∈ t, c.toNat < 0x80) :
    encode t = t.map fun c => octet c.toNat := by
  induction t with
  | nil => rfl
  | cons c t ih =>
    rw [List.forall_mem_cons] at h
    rw [encode, List.flatMap_cons, ← encode, ih h.2, encodeChar, if_pos h.1]
    rfl

/-- ASCII text is read back octet by octet. -/
theorem map_ofNat_encode {t : Text} (h : ∀ c ∈ t, c.toNat < 0x80) :
    (encode t).map (fun b => Char.ofNat b.toNat) = t := by
  rw [encode_ascii h, List.map_map]
  refine (List.map_congr_left fun c hc => ?_).trans (List.map_id t)
  rw [Function.comp_apply, toNat_octet (by have := h c hc; omega), Char.ofNat_toNat, id]

theorem octet_mem_encode {t : Text} {c : Char} (h : c ∈ t) (hc : c.toNat < 0x80) :
    octet c.toNat ∈ encode t := by
  refine List.mem_flatMap.2 ⟨c, h, ?_⟩
  rw [encodeChar, if_pos hc]
  exact List.mem_singleton.2 rfl

/-- An octet of a character that is no ASCII character is none below 128. -/
theorem mem_encodeChar {c : Char} {b : UInt8} (h : b ∈ encodeChar c) :
    (c.toNat < 0x80 ∧ b.toNat = c.toNat) ∨ (0x80 ≤ c.toNat ∧ 0x80 ≤ b.toNat) := by
  have hv : c.toNat < 0x110000 := by
    rcases c.valid with hc | hc
    · exact Nat.lt_trans hc (by decide)
    · exact hc.2
  unfold encodeChar at h
  simp only at h
  split at h
  · next hn =>
    rw [List.mem_singleton] at h
    exact .inl ⟨hn, by rw [h, toNat_octet (by omega)]⟩
  · refine .inr ⟨by omega, ?_⟩
    split at h
    · simp only [List.mem_cons, List.not_mem_nil, or_false] at h
      rcases h with rfl | rfl <;> rw [toNat_octet (by omega)] <;> omega
    split at h
    · simp only [List.mem_cons, List.not_mem_nil, or_false] at h
      rcases h with rfl | rfl | rfl <;> rw [toNat_octet (by omega)] <;> omega
    · simp only [List.mem_cons, List.not_mem_nil, or_false] at h
      rcases h with rfl | rfl | rfl | rfl <;> rw [toNat_octet (by omega)] <;> omega

theorem mem_encode_of_lt {t : Text} {b : UInt8} (h : b ∈ encode t) (hb : b.toNat < 0x80) :
    ∃ c ∈ t, c.toNat = b.toNat := by
  obtain ⟨c, hc, hm⟩ := List.mem_flatMap.1 h
  rcases mem_encodeChar hm with ⟨-, he⟩ | ⟨-, hge⟩
  · exact ⟨c, hc, he.symm⟩
  · omega

theorem length_encodeChar (c : Char) :
    (encodeChar c).length = 1 ∧ c.toNat < 0x80 ∨ 2 ≤ (encodeChar c).length := by
  unfold encodeChar
  dsimp only
  split
  · next h => exact .inl ⟨rfl, h⟩
  split
  · exact .inr (Nat.le_refl 2)
  split <;> exact .inr (Nat.le_add_left 2 _)

/-- A text has at least as many octets as characters, and no more than that only if it is ASCII. -/
theorem length_encode (t : Text) :
    t.length ≤ (encode t).length ∧
      ((encode t).length = t.length → ∀ c ∈ t, c.toNat < 0x80) := by
  induction t with
  | nil => exact ⟨Nat.le_refl 0, fun _ => List.forall_mem_nil _⟩
  | cons c t ih =>
    obtain ⟨hle, hlt⟩ := ih
    rw [encode, List.flatMap_cons, ← encode, List.length_append, List.length_cons]
    obtain ⟨hone, hc⟩ | htwo := length_encodeChar c
    · exact ⟨by omega, fun h => List.forall_mem_cons.2 ⟨hc, hlt (by omega)⟩⟩
    · exact ⟨by omega, fun h => by omega⟩

end Utf8

end SessionGateway
