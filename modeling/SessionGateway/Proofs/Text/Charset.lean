/-
  Charsets and what they hold — a text that was written in a charset, and is read in it again.

  A charset holds some characters (`Charset.Holds`) and shows a question mark in place of any other
  (`Charset.shown`).

  * `decode_encode_normal`: a text is read as it is shown, in UTF-8 without one mark in front;
  * `read_normal`: so it is under every name of a charset, and under its registered name;
  * `shown_eq_self_iff`: exactly the characters that a charset holds are shown as they are;
  * `encode_eq_encode_iff`: what two charsets write alike.
-/
import SessionGateway.Proofs.Text.Utf8
import SessionGateway.Text.Charset

namespace SessionGateway.Charset

/-! ## Characters -/

/-- The characters that a charset holds: all of them, those up to U+00FF, or those up to U+007F. -/
def Holds : Charset → Char → Prop
  | utf8, _ => True
  | latin1, c => c.toNat ≤ 0xFF
  | ascii, c => c.toNat ≤ 0x7F

instance (charset : Charset) (c : Char) : Decidable (charset.Holds c) := by
  cases charset <;> unfold Holds <;> infer_instance

/-- What a charset shows of a character. -/
def shown (charset : Charset) (c : Char) : Char := if charset.Holds c then c else '?'

variable {charset : Charset} {c : Char}

theorem holds_of_lt (h : c.toNat < 128) : charset.Holds c := by
  cases charset with
  | utf8 => trivial
  | latin1 => exact (by omega : c.toNat ≤ 0xFF)
  | ascii => exact (by omega : c.toNat ≤ 0x7F)

theorem holds_utf8 (c : Char) : utf8.Holds c := trivial

/-- **What a charset holds is shown as it is**, and nothing else. -/
theorem shown_eq_self_iff : charset.shown c = c ↔ charset.Holds c := by
  unfold shown
  split
  · next h => exact iff_of_true rfl h
  · next h =>
    refine iff_of_false ?_ h
    rintro rfl
    exact h (holds_of_lt (by decide))

/-! ## Texts -/

theorem ofNat_narrow {bound : Nat} (hb : bound ≤ 256) (c : Char) :
    Char.ofNat (narrow bound c).toNat = if c.toNat < bound then c else '?' := by
  unfold narrow
  split
  · next h =>
    rw [UInt8.toNat_ofNat', Nat.mod_eq_of_lt (by omega), Char.ofNat_toNat]
  · rfl

theorem map_shown {t : Text} (h : ∀ c ∈ t, charset.Holds c) : t.map charset.shown = t :=
  (List.map_congr_left fun c hc => shown_eq_self_iff.2 (h c hc)).trans (List.map_id t)

/-- A text without a byte order mark in front of it. -/
def unmarked : Text → Text
  | '\uFEFF' :: t => t
  | t => t

theorem unmarked_of_head {t : Text} (h : ∀ c ∈ t.head?, c.toNat < 128) : unmarked t = t := by
  fun_cases unmarked t with
  | case1 t => exact absurd (h _ rfl) (by decide)
  | case2 => rfl

/-- Of a text that is written, the mark in front is dropped that the text itself has there. -/
theorem dropMark_encode (t : Text) : Utf8.dropMark (Utf8.encode t) = Utf8.encode (unmarked t) := by
  have hmark : Utf8.encodeChar '\uFEFF' = [0xEF, 0xBB, 0xBF] := by decide
  fun_cases unmarked t with
  | case1 t =>
    rw [Utf8.encode, List.flatMap_cons, hmark, Utf8.dropMark, dropStart?_self_append]
    rfl
  | case2 _ hne =>
    have hnone : dropStart? [0xEF, 0xBB, 0xBF] (Utf8.encode t) = none := by
      refine Option.eq_none_iff_forall_ne_some.2 fun rest hrest => ?_
      rw [dropStart?_eq_some_iff, ← hmark] at hrest
      cases t with
      | nil => cases hrest
      | cons c t => exact hne t (by rw [(Utf8.encodeChar_append_inj hrest).1])
    rw [Utf8.dropMark, hnone, Option.getD_none]

/-- What is left of a text that a charset wrote: what it shows of each character, and in UTF-8 no
    mark in front. -/
def normal (charset : Charset) (t : Text) : Text :=
  match charset with
  | utf8 => unmarked (t.map utf8.shown)
  | latin1 | ascii => t.map charset.shown

theorem normal_of_head (charset : Charset) {t : Text} (h : ∀ c ∈ t.head?, c.toNat < 128) :
    charset.normal t = t.map charset.shown := by
  cases charset with
  | utf8 => rw [normal, map_shown fun c _ => holds_utf8 c, unmarked_of_head h]
  | latin1 | ascii => rfl

/-- **A text is read as what its charset leaves of it.** -/
theorem decode_encode_normal (charset : Charset) (t : Text) :
    charset.decode (charset.encode t) = charset.normal t := by
  cases charset with
  | utf8 =>
    rw [normal, map_shown fun c _ => holds_utf8 c, decode, encode, Utf8.decodeText,
      dropMark_encode, Utf8.decodeLossy_encode]
  | latin1 =>
    rw [decode, encode, List.map_map]
    refine List.map_congr_left fun c _ => (ofNat_narrow (by decide) c).trans ?_
    simp only [shown, Holds, Nat.lt_succ_iff]
  | ascii =>
    rw [decode, encode, List.map_map]
    refine List.map_congr_left fun c _ => ?_
    have hlow : narrow 128 c < 0x80 := by
      unfold narrow
      split
      · next hc =>
        rw [UInt8.lt_iff_toNat_lt, UInt8.toNat_ofNat', Nat.mod_eq_of_lt (by omega)]
        exact hc
      · decide
    rw [Function.comp_apply, if_pos hlow, ofNat_narrow (by decide)]
    simp only [shown, Holds, Nat.lt_succ_iff]

/-- A text is read as its charset shows it, if it begins with an ASCII character. -/
theorem decode_encode (charset : Charset) {t : Text} (h : ∀ c ∈ t.head?, c.toNat < 128) :
    charset.decode (charset.encode t) = t.map charset.shown := by
  rw [decode_encode_normal, normal_of_head charset h]

/-- A text is read as it is if its charset holds it. -/
theorem decode_encode_of_holds {t : Text} (hhead : ∀ c ∈ t.head?, c.toNat < 128)
    (h : ∀ c ∈ t, charset.Holds c) : charset.decode (charset.encode t) = t := by
  rw [decode_encode charset hhead, map_shown h]

/-- **A text that was written under a name is read in its normal form**, under that name and under
    the registered name of its charset, which is registered under itself. -/
theorem read_normal (name t : Text) :
    let charset := ofName name
    (ofName (canonicalName name)).decode (charset.encode t) =
        charset.decode (charset.encode t) ∧
      charset.decode (charset.encode t) = charset.normal t ∧
      canonicalName (canonicalName name) = canonicalName name := by
  intro charset
  have hname : ofName (canonicalName name) = charset := ofName_name charset
  exact ⟨by rw [hname], decode_encode_normal charset t, canonicalName_canonicalName name⟩

/-! ## Two charsets -/

/-- Whether two charsets write a character alike: it is ASCII, or neither holds it and both write a
    question mark. -/
def WriteAlike (charset other : Charset) (c : Char) : Prop :=
  c.toNat < 128 ∨ ¬ charset.Holds c ∧ ¬ other.Holds c

theorem writeAlike_comm {charset other : Charset} :
    charset.WriteAlike other c ↔ other.WriteAlike charset c :=
  or_congr_right and_comm

/-- UTF-8 holds every character, so only ASCII is written alike. -/
theorem writeAlike_utf8 : utf8.WriteAlike charset c ↔ c.toNat < 128 :=
  or_iff_left fun h => h.1 (holds_utf8 c)

theorem narrow_of_lt {bound : Nat} (h : c.toNat < bound) : narrow bound c = UInt8.ofNat c.toNat :=
  if_pos h

theorem narrow_eq_narrow_iff : narrow 256 c = narrow 128 c ↔ latin1.WriteAlike ascii c := by
  have hholds : (latin1.Holds c ↔ c.toNat < 256) ∧ (ascii.Holds c ↔ c.toNat < 128) :=
    ⟨Nat.lt_succ_iff.symm, Nat.lt_succ_iff.symm⟩
  rw [WriteAlike, hholds.1, hholds.2]
  by_cases hlow : c.toNat < 128
  · rw [narrow_of_lt hlow, narrow_of_lt (Nat.lt_trans hlow (by decide))]
    exact iff_of_true rfl (.inl hlow)
  · have hquestion : narrow 128 c = 63 := if_neg hlow
    rw [or_iff_right hlow, and_iff_left hlow, hquestion]
    by_cases hhigh : c.toNat < 256
    · refine iff_of_false (fun he => hlow ?_) (not_not_intro hhigh)
      rw [narrow_of_lt hhigh, ← UInt8.toNat_inj, UInt8.toNat_ofNat', Nat.mod_eq_of_lt hhigh] at he
      rw [he]
      decide
    · exact iff_of_true (if_neg hhigh) hhigh

theorem encode_utf8_eq_map_iff {bound : Nat} (hlow : 128 ≤ bound) {t : Text} :
    Utf8.encode t = t.map (narrow bound) ↔ ∀ c ∈ t, c.toNat < 128 := by
  constructor
  · intro h
    refine (Utf8.length_encode t).2 ?_
    rw [h, List.length_map]
  · intro h
    rw [Utf8.encode_ascii h]
    exact List.map_congr_left fun c hc => (narrow_of_lt (Nat.lt_of_lt_of_le (h c hc) hlow)).symm

/-- **Two charsets write a text alike** exactly if they write each of its characters alike. -/
theorem encode_eq_encode_iff {charset other : Charset} {t : Text} :
    charset.encode t = other.encode t ↔
      charset = other ∨ ∀ c ∈ t, charset.WriteAlike other c := by
  have hutf8 : ∀ other : Charset, other ≠ utf8 →
      (utf8.encode t = other.encode t ↔ ∀ c ∈ t, utf8.WriteAlike other c) := by
    intro other hother
    simp only [writeAlike_utf8]
    cases other with
    | utf8 => exact absurd rfl hother
    | latin1 | ascii => exact encode_utf8_eq_map_iff (by decide)
  have hnarrow : latin1.encode t = ascii.encode t ↔ ∀ c ∈ t, latin1.WriteAlike ascii c := by
    simp only [← narrow_eq_narrow_iff]
    exact List.map_inj_left
  have hswap : ∀ a b : Charset, (a.encode t = b.encode t ↔ ∀ c ∈ t, a.WriteAlike b c) →
      (b.encode t = a.encode t ↔ ∀ c ∈ t, b.WriteAlike a c) := fun a b h =>
    eq_comm.trans (h.trans (forall₂_congr fun _ _ => writeAlike_comm))
  by_cases he : charset = other
  · rw [he]
    exact iff_of_true rfl (.inl rfl)
  · rw [or_iff_right he]
    match charset, other with
    | utf8, other => exact hutf8 other (Ne.symm he)
    | charset, utf8 => exact hswap _ _ (hutf8 charset he)
    | latin1, ascii => exact hnarrow
    | ascii, latin1 => exact hswap _ _ hnarrow
    | latin1, latin1 | ascii, ascii => exact absurd rfl he

end SessionGateway.Charset
