/-
  Header values — what can be written under a name, and what stands there afterwards.

  * `ofText?_eq_some_iff`: a text is written as its octets, unless it has a control character
    other than the tab;
  * `text?_encode`: readable text is read back from its octets;
  * `getAll_add`: a value that is added stands behind those that the name has.
-/
import SessionGateway.Http.Header
import SessionGateway.Proofs.Text.Utf8

namespace SessionGateway

namespace Header

/-! ## Values -/

/-- A character that the value of a header may hold: no control character but the tab. -/
def Writable (c : Char) : Prop := c.toNat = 9 ∨ (0x20 ≤ c.toNat ∧ c.toNat ≠ 0x7F)

instance (c : Char) : Decidable (Writable c) := by unfold Writable; infer_instance

/-- The delete character, the only one behind U+0020 that no value holds. -/
def delete : Char := '\x7f'

theorem isAllowed_iff (b : UInt8) :
    isAllowed b = true ↔ b.toNat = 9 ∨ (0x20 ≤ b.toNat ∧ b.toNat ≠ 0x7F) := by
  simp [isAllowed, UInt8.le_iff_toNat_le, ← UInt8.toNat_inj]

theorem isVisible_iff (b : UInt8) :
    isVisible b = true ↔ b.toNat = 9 ∨ (0x20 ≤ b.toNat ∧ b.toNat ≤ 0x7E) := by
  simp [isVisible, UInt8.le_iff_toNat_le, ← UInt8.toNat_inj]

/-- The octets of a text may be written exactly if its characters may. -/
theorem all_isAllowed_encode (t : Text) :
    (Utf8.encode t).all isAllowed = true ↔ ∀ c ∈ t, Writable c := by
  rw [List.all_eq_true]
  constructor
  · intro h c hc
    by_cases hlow : c.toNat < 0x80
    · have ha := (isAllowed_iff _).1 (h _ (Utf8.octet_mem_encode hc hlow))
      rwa [Utf8.toNat_octet (by omega)] at ha
    · exact .inr ⟨by omega, by omega⟩
  · intro h b hb
    rw [isAllowed_iff]
    by_cases hlow : b.toNat < 0x80
    · obtain ⟨c, hc, he⟩ := Utf8.mem_encode_of_lt hb hlow
      rw [← he]
      exact h c hc
    · exact .inr ⟨by omega, by omega⟩

/-- **A text is written as its octets**, unless it has a control character other than the tab. -/
theorem ofText?_eq_some_iff {t : Text} {value : Bytes} :
    ofText? t = some value ↔ (∀ c ∈ t, Writable c) ∧ value = Utf8.encode t := by
  rw [← all_isAllowed_encode, ofText?, checked?]
  split
  · next h => simp [h, eq_comm]
  · next h => simp [h]

theorem ofText?_of_writable {t : Text} (h : ∀ c ∈ t, Writable c) :
    ofText? t = some (Utf8.encode t) :=
  ofText?_eq_some_iff.2 ⟨h, rfl⟩

/-- **Readable text is read back**: visible ASCII, spaces and tabs. -/
theorem text?_encode {t : Text}
    (h : ∀ c ∈ t, c.toNat = 9 ∨ (0x20 ≤ c.toNat ∧ c.toNat ≤ 0x7E)) :
    text? (Utf8.encode t) = some t := by
  have hlow : ∀ c ∈ t, c.toNat < 0x80 := fun c hc => by have := h c hc; omega
  have hv : (Utf8.encode t).all isVisible = true := by
    rw [Utf8.encode_ascii hlow, List.all_eq_true]
    intro b hb
    obtain ⟨c, hc, rfl⟩ := List.mem_map.1 hb
    rw [isVisible_iff, Utf8.toNat_octet (by have := hlow c hc; omega)]
    exact h c hc
  rw [text?, if_pos hv, Utf8.map_ofNat_encode hlow]

/-- The text of a value can be written again. -/
theorem writable_of_text? {value : Bytes} {t : Text} (h : text? value = some t) :
    ∀ c ∈ t, Writable c := by
  have hwritable : ∀ n : Fin 256, isVisible (UInt8.ofNat n) = true → Writable (Char.ofNat n) := by
    decide +kernel
  unfold text? at h
  split at h
  · next hv =>
    cases h
    intro c hc
    obtain ⟨b, hb, rfl⟩ := List.mem_map.1 hc
    have hw := hwritable ⟨b.toNat, b.toNat_lt⟩
    rw [UInt8.ofNat_toNat] at hw
    exact hw (List.all_eq_true.1 hv b hb)
  · cases h

/-! ## Names -/

theorem lt_of_isToken {c : Char} (h : isToken c = true) : c.toNat < 128 := by
  rw [isToken, Bool.or_eq_true, List.contains_iff_mem] at h
  rcases h with h | h
  · have hranges : (decide (c.val ≥ 'A'.val ∧ c.val ≤ 'Z'.val) ||
        decide (c.val ≥ 'a'.val) && decide (c.val ≤ 'z'.val) ||
          (decide (c.val ≥ '0'.val) && decide (c.val ≤ '9'.val))) = true := h
    simp only [Bool.or_eq_true, Bool.and_eq_true, decide_eq_true_eq, UInt32.le_iff_toNat_le,
      ge_iff_le] at hranges
    show c.val.toNat < 128
    have hends : 'Z'.val.toNat < 128 ∧ 'z'.val.toNat < 128 ∧ '9'.val.toNat < 128 := by decide
    omega
  · have hm : ∀ c ∈ tokenMarks, c.toNat < 128 := by decide
    exact hm c h

/-- A name is a token. -/
theorem isToken_of_name? {t n : Text} (h : name? t = some n) : ∀ c ∈ t, isToken c = true := by
  unfold name? at h
  split at h
  · next h' =>
    rw [Bool.and_eq_true, Bool.and_eq_true] at h'
    exact List.all_eq_true.1 h'.2
  · cases h

/-- A token stays one in small letters. -/
theorem isToken_toLower {c : Char} (h : isToken c = true) : isToken c.toLower = true := by
  have hd : ∀ n : Fin 128, isToken (Char.ofNat n.val) = true →
      isToken (Char.ofNat n.val).toLower = true := by
    decide +kernel
  have hc := hd ⟨c.toNat, lt_of_isToken h⟩
  rw [Char.ofNat_toNat] at hc
  exact hc h

end Header

/-! ## Entries -/

namespace Headers
variable (h : Headers) {name other : Text} (value : Bytes) (t : Text)

/-- The first value of a name is the first of all that it has. -/
theorem get?_eq_head? (name : Text) : h.get? name = (h.getAll name).head? := by
  obtain ⟨es⟩ := h
  simp only [get?, getAll]
  induction es with
  | nil => rfl
  | cons e es ih =>
    obtain ⟨n, value⟩ := e
    rw [List.lookup_cons, List.filterMap_cons]
    by_cases hn : n = name
    · simp [hn]
    · rw [if_neg hn, beq_eq_false_iff_ne.2 (Ne.symm hn), ih]

theorem get?_erase_self (name : Text) : (h.erase name).get? name = none := by
  rw [get?, List.lookup_eq_none_iff]
  intro e he
  have hne := (mem_erase.1 he).2
  simpa using Ne.symm hne

theorem get?_insert_self (name : Text) : (h.insert name value).get? name = some value := by
  have he : (h.erase name).entries.lookup name = none := h.get?_erase_self name
  simp [insert, append, get?, List.lookup_append, he]

theorem get?_set_self (name : Text) :
    (h.set name t).get? name = (Header.ofText? t).or (h.get? name) := by
  unfold set
  cases Header.ofText? t with
  | none => rfl
  | some value => exact h.get?_insert_self value name

theorem get?_add_of_ne (hn : other ≠ name) : (h.add name t).get? other = h.get? other := by
  unfold add
  split
  · exact get?_append_of_ne hn _
  · rfl

theorem getAll_erase_of_ne (hn : other ≠ name) : (h.erase name).getAll other = h.getAll other := by
  obtain ⟨es⟩ := h
  simp only [getAll, erase]
  induction es with
  | nil => rfl
  | cons e es ih =>
    rw [List.filter_cons]
    split
    · rw [List.filterMap_cons, List.filterMap_cons, ih]
    · next he =>
      have hne : e.1 = name := by simpa using he
      rw [ih, List.filterMap_cons, if_neg fun ho => hn (ho.symm.trans hne)]

theorem get?_erase_of_ne (hn : other ≠ name) : (h.erase name).get? other = h.get? other := by
  rw [get?_eq_head?, getAll_erase_of_ne h hn, ← get?_eq_head?]

theorem get?_insert_of_ne (hn : other ≠ name) :
    (h.insert name value).get? other = h.get? other := by
  rw [insert, get?_append_of_ne hn, get?_erase_of_ne h hn]

theorem get?_set_of_ne (hn : other ≠ name) : (h.set name t).get? other = h.get? other := by
  unfold set
  split
  · exact h.get?_insert_of_ne _ hn
  · rfl

theorem getAll_append_self (name : Text) :
    (h.append name value).getAll name = h.getAll name ++ [value] := by
  simp [getAll, append]

theorem getAll_erase_self (name : Text) : (h.erase name).getAll name = [] := by
  rw [getAll, List.filterMap_eq_nil_iff]
  exact fun e he => if_neg (mem_erase.1 he).2

/-- A value that is set stands alone, and there is none if the text cannot be written. -/
theorem getAll_set_of_absent (ha : h.getAll name = []) :
    (h.set name t).getAll name = (Header.ofText? t).toList := by
  unfold set
  cases Header.ofText? t with
  | none => exact ha
  | some value =>
    show (h.insert name value).getAll name = [value]
    rw [insert, getAll_append_self, getAll_erase_self, List.nil_append]

theorem getAll_set_of_ne (hn : other ≠ name) : (h.set name t).getAll other = h.getAll other := by
  unfold set insert
  split
  · rw [getAll_append_of_ne hn, getAll_erase_of_ne h hn]
  · rfl

theorem getAll_add_of_ne (hn : other ≠ name) : (h.add name t).getAll other = h.getAll other := by
  unfold add
  split
  · exact getAll_append_of_ne hn _
  · rfl

theorem getAll_foldl_add_of_ne {β : Type} (hn : other ≠ name) (f : β → Text) (es : List β) :
    (es.foldl (fun h e => h.add name (f e)) h).getAll other = h.getAll other := by
  induction es generalizing h with
  | nil => rfl
  | cons e es ih => rw [List.foldl_cons, ih, h.getAll_add_of_ne _ hn]

/-- **A value that is added stands behind those that the name has.** -/
theorem getAll_add (name : Text) :
    (h.add name t).getAll name = h.getAll name ++ (Header.ofText? t).toList := by
  unfold add
  cases Header.ofText? t with
  | none => exact (List.append_nil _).symm
  | some value => exact h.getAll_append_self value name

end Headers

end SessionGateway
