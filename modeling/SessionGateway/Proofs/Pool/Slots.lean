/-
  Laws of the slots — what each step does to the counts and to the idle sessions.

  Every step puts one slot in the place of another, or forgets one that is unused.

  * `of_take`: the three answers to a request for a session, each with the slot it leaves;
  * `sessions_put`, `sessions_perm`: putting a slot changes the idle sessions of its key and
    no others;
  * `get_forget`, `sessions_forget`: forgetting an unused slot changes no count and no idle
    session;
  * `AllIdle`: what every idle session has for its key, and the steps that keep it so.
-/
import Mathlib.Data.List.Perm.Basic
import Mathlib.Data.List.Nodup
import SessionGateway.Pool.Slots

namespace SessionGateway.Slots

variable {α : Type}

/-- The keys that have a slot. -/
def keys (s : Slots α) : List Text := s.entries.map (·.1)

/-- The idle sessions of all keys. -/
def sessions (s : Slots α) : List α := s.entries.flatMap (·.2.idle)

/-- The idle sessions of all keys but one. -/
def elsewhere (s : Slots α) (key : Text) : List α :=
  (s.entries.filter (·.1 != key)).flatMap (·.2.idle)

@[simp] theorem get_empty (key : Text) : (empty : Slots α).get key = .empty := rfl

theorem get?_eq_none {s : Slots α} {key : Text} (h : key ∉ s.keys) : s.get? key = none := by
  rw [get?, List.lookup_eq_none_iff]
  rintro ⟨k, v⟩ he
  have : k ≠ key := by rintro rfl; exact h (List.mem_map.2 ⟨_, he, rfl⟩)
  simpa using Ne.symm this

theorem get_of_notMem {s : Slots α} {key : Text} (h : key ∉ s.keys) : s.get key = .empty := by
  rw [get, get?_eq_none h]; rfl

@[simp] theorem get_put_self (s : Slots α) (key : Text) (slot : Slot α) :
    (s.put key slot).get key = slot := by
  rw [get_put, if_pos rfl]

theorem get_put_of_ne {s : Slots α} {key other : Text} (h : other ≠ key) (slot : Slot α) :
    (s.put key slot).get other = s.get other := by
  rw [get_put, if_neg h]

/-! ## Keys -/

theorem keys_put (s : Slots α) (key : Text) (slot : Slot α) :
    (s.put key slot).keys = if key ∈ s.keys then s.keys else s.keys ++ [key] := by
  obtain ⟨es⟩ := s
  simp only [put, keys]
  induction es with
  | nil => simp [putEntry]
  | cons e es ih =>
    by_cases he : e.1 = key
    · simp [putEntry, he]
    · have hne : ¬ key = e.1 := fun h => he h.symm
      simp only [putEntry, he, if_false, List.map_cons, ih, List.mem_cons, hne, false_or]
      by_cases hm : key ∈ es.map (·.1) <;> simp [hm]

theorem nodup_keys_put {s : Slots α} (h : s.keys.Nodup) (key : Text) (slot : Slot α) :
    (s.put key slot).keys.Nodup := by
  rw [keys_put]
  split
  · exact h
  · next hk => exact List.nodup_append.2 ⟨h, by simp, by rintro a ha b hb rfl; simp_all⟩

theorem nodup_keys_forget {s : Slots α} (h : s.keys.Nodup) (key : Text) :
    (s.forget key).keys.Nodup := by
  unfold forget
  split
  · exact (List.filter_sublist.map _).nodup h
  · exact h

/-! ## Idle sessions -/

theorem filter_eq_self_of_notMem {es : List (Text × Slot α)} {key : Text}
    (h : key ∉ es.map (·.1)) : es.filter (·.1 != key) = es :=
  List.filter_eq_self.2 fun e he => bne_iff_ne.2 fun hk => h (List.mem_map.2 ⟨e, he, hk⟩)

theorem sessions_put {s : Slots α} (h : s.keys.Nodup) (key : Text) (slot : Slot α) :
    (s.put key slot).sessions.Perm (slot.idle ++ s.elsewhere key) := by
  obtain ⟨es⟩ := s
  simp only [put, sessions, elsewhere, keys] at h ⊢
  induction es with
  | nil => simp [putEntry]
  | cons e es ih =>
    rw [List.map_cons, List.nodup_cons] at h
    by_cases he : e.1 = key
    · have hf := filter_eq_self_of_notMem (he ▸ h.1)
      simp [putEntry, he, hf]
    · simp only [putEntry, he, if_false, List.flatMap_cons, bne_iff_ne, ne_eq, not_false_eq_true,
        List.filter_cons_of_pos]
      refine ((ih h.2).append_left _).trans ?_
      rw [← List.append_assoc, ← List.append_assoc]
      exact List.perm_append_comm.append_right _

theorem sessions_perm {s : Slots α} (h : s.keys.Nodup) (key : Text) :
    s.sessions.Perm ((s.get key).idle ++ s.elsewhere key) := by
  obtain ⟨es⟩ := s
  simp only [sessions, elsewhere, keys, get, get?] at h ⊢
  induction es with
  | nil => simp [Slot.empty]
  | cons e es ih =>
    obtain ⟨k, v⟩ := e
    rw [List.map_cons, List.nodup_cons] at h
    by_cases hk : k = key
    · have hf := filter_eq_self_of_notMem (hk ▸ h.1)
      simp [hk, hf]
    · have hk' : (key == k) = false := by simpa using Ne.symm hk
      simp only [List.lookup_cons, hk', List.flatMap_cons, bne_iff_ne, ne_eq, hk,
        not_false_eq_true, List.filter_cons_of_pos]
      refine ((ih h.2).append_left _).trans ?_
      rw [← List.append_assoc, ← List.append_assoc]
      exact List.perm_append_comm.append_right _

theorem get_of_mem {s : Slots α} (h : s.keys.Nodup) {e : Text × Slot α} (he : e ∈ s.entries) :
    s.get e.1 = e.2 := by
  obtain ⟨es⟩ := s
  simp only [keys, get, get?] at h he ⊢
  induction es with
  | nil => simp at he
  | cons d es ih =>
    obtain ⟨k, v⟩ := d
    rw [List.map_cons, List.nodup_cons] at h
    rcases List.mem_cons.1 he with rfl | hm
    · simp
    · have hk : (e.1 == k) = false :=
        beq_eq_false_iff_ne.2 fun hk => h.1 (List.mem_map.2 ⟨e, hm, hk⟩)
      rw [List.lookup_cons, hk]
      exact ih h.2 hm

/-- An idle session is idle under some key. -/
theorem mem_sessions {s : Slots α} (h : s.keys.Nodup) {x : α} (hx : x ∈ s.sessions) :
    ∃ key, x ∈ (s.get key).idle := by
  obtain ⟨e, he, hx⟩ := List.mem_flatMap.1 hx
  exact ⟨e.1, by rwa [get_of_mem h he]⟩

/-! ## Steps -/

/-- The three answers to a request for a session, each with the slot that it leaves. -/
theorem of_take {limit : Nat} {s s' : Slots α} {key : Text} {answer : Taken α}
    (h : s.take limit key = (answer, s')) :
    match answer with
    | .reused x => ∃ idle, (s.get key).idle = x :: idle ∧
        s' = s.put key ⟨idle, (s.get key).checkedOut + 1⟩
    | .reserved => (s.get key).idle = [] ∧ (s.get key).checkedOut < limit ∧
        s' = s.put key ⟨[], (s.get key).checkedOut + 1⟩
    | .exhausted => (s.get key).idle = [] ∧ limit ≤ (s.get key).checkedOut ∧
        s' = s.put key (s.get key) := by
  unfold take at h
  cases hi : (s.get key).idle with
  | cons x idle =>
    simp only [hi] at h
    cases h
    exact ⟨idle, rfl, rfl⟩
  | nil =>
    by_cases hl : limit ≤ (s.get key).checkedOut <;> simp only [hi, hl, if_true, if_false] at h <;>
      cases h
    · exact ⟨rfl, hl, rfl⟩
    · exact ⟨rfl, by omega, rfl⟩

theorem isUnused_iff {slot : Slot α} : slot.isUnused ↔ slot = .empty := by
  obtain ⟨idle, checkedOut⟩ := slot
  simp [Slot.isUnused, Slot.empty, and_comm]

theorem get_forget (s : Slots α) (key other : Text) : (s.forget key).get other = s.get other := by
  unfold forget
  split
  · next hu =>
    by_cases h : other = key
    · subst h
      rw [isUnused_iff.1 hu, get_of_notMem]
      simp [keys]
    · simp only [get, get?]
      congr 1
      induction s.entries with
      | nil => rfl
      | cons e es ih =>
        obtain ⟨k, v⟩ := e
        by_cases hk : k = key
        · have hok : (other == k) = false := by simpa using hk ▸ h
          simpa [hk, List.lookup_cons, hk ▸ hok] using ih
        · simp only [bne_iff_ne, ne_eq, hk, not_false_eq_true, List.filter_cons_of_pos,
            List.lookup_cons, ih]
  · rfl

theorem sessions_forget {s : Slots α} (h : s.keys.Nodup) (key : Text) :
    (s.forget key).sessions.Perm s.sessions := by
  unfold forget
  split
  · next hu =>
    refine List.Perm.trans ?_ (sessions_perm h key).symm
    rw [isUnused_iff.1 hu]
    exact List.Perm.refl _
  · exact List.Perm.refl _

/-! ## What all idle sessions have -/

/-- Every idle session stands in a relation to the key under which it is idle. -/
def AllIdle (s : Slots α) (P : Text → α → Prop) : Prop := ∀ key, ∀ x ∈ (s.get key).idle, P key x

namespace AllIdle
variable {s : Slots α} {P : Text → α → Prop} {key : Text}

theorem put (h : s.AllIdle P) {slot : Slot α} (hs : ∀ x ∈ slot.idle, P key x) :
    (s.put key slot).AllIdle P := by
  intro k x hx
  by_cases hk : k = key
  · subst hk
    rw [get_put_self] at hx
    exact hs x hx
  · rw [get_put_of_ne hk] at hx
    exact h k x hx

theorem forget (h : s.AllIdle P) : (s.forget key).AllIdle P := by
  intro k x hx
  rw [get_forget] at hx
  exact h k x hx

theorem cancel (h : s.AllIdle P) : (s.cancel key).AllIdle P := h.put (h key)

theorem take (h : s.AllIdle P) (limit : Nat) (key : Text) :
    (s.take limit key).2.AllIdle P ∧ ∀ x, (s.take limit key).1 = .reused x → P key x := by
  rcases ht : s.take limit key with ⟨y | _ | _, s'⟩
  · obtain ⟨idle, hi, rfl⟩ := of_take ht
    have hk : ∀ x ∈ y :: idle, P key x := hi ▸ h key
    refine ⟨h.put fun x hx => hk x (List.mem_cons_of_mem _ hx), ?_⟩
    rintro x ⟨⟩
    exact hk y (by simp)
  · obtain ⟨-, -, rfl⟩ := of_take ht
    exact ⟨h.put nofun, nofun⟩
  · obtain ⟨-, -, rfl⟩ := of_take ht
    exact ⟨h.put (h key), nofun⟩

theorem release (h : s.AllIdle P) {x : α} (hx : P key x) (reload : Bool) :
    (s.release key x reload).AllIdle P := by
  refine h.put ?_
  cases reload with
  | true => exact h key
  | false => exact List.forall_mem_cons.2 ⟨hx, h key⟩

end AllIdle

end SessionGateway.Slots
