/-
  Occupancy — which keys have a slot in a shared pool.

  A slot is made before it is known whether there is a session for its key, and is removed
  in a step of its own when there is none.  `Occupied` is what holds in between: a key with
  a slot was built at some time, or some thread is asking for it.  Each step keeps it
  (`Occupied.turn`), for a slot in use always belongs to such a key (`Conserved.built`).

  * `SessionPool.acquire_error`: a checkout that fails, with no step of another thread in
    between, changes no slot and adds none;
  * `Occupied.reachable`: what holds in every reachable state;
  * `slots_occupied`: so clients cannot make the pool grow beyond two slots for each
    registered solution, by whatever keys they ask for.
-/
import Mathlib.Algebra.Order.BigOperators.Group.Finset
import SessionGateway.Proofs.Pool.Checkout
import SessionGateway.Proofs.Pool.Conservation
import SessionGateway.Proofs.Text.Cutting

namespace SessionGateway

variable {σ α : Type} {limit n : Nat} {key : Text}

/-! ## Keys with a slot -/

namespace Slots
variable {s s' : Slots α} {k : Text}

theorem mem_keys_of_ne_empty (h : s.get k ≠ .empty) : k ∈ s.keys := by
  by_contra hk
  exact h (get_of_notMem hk)

theorem eq_or_mem_of_mem_keys_put {slot : Slot α} (h : k ∈ (s.put key slot).keys) :
    k = key ∨ k ∈ s.keys := by
  rw [keys_put] at h
  split at h
  · exact .inr h
  · rcases List.mem_append.1 h with h | h
    · exact .inr h
    · exact .inl (List.mem_singleton.1 h)

theorem keys_forget (s : Slots α) (key : Text) : (s.forget key).keys =
    if (s.get key).isUnused then s.keys.filter (· != key) else s.keys := by
  unfold forget
  split
  · rw [keys, keys, List.filter_map]
    rfl
  · rfl

theorem keys_forget_sublist (s : Slots α) (key : Text) : (s.forget key).keys.Sublist s.keys := by
  rw [keys_forget]
  split
  · exact List.filter_sublist
  · exact List.Sublist.refl _

/-- A slot that is still there after it was to be forgotten is in use. -/
theorem ne_empty_of_mem_forget (h : key ∈ (s.forget key).keys) : s.get key ≠ .empty := by
  rw [keys_forget] at h
  split at h
  · simp at h
  · next hu => exact fun he => hu (isUnused_iff.2 he)

/-- What is refused at the limit changes nothing. -/
theorem of_take_exhausted (hlimit : 1 ≤ limit) (h : s.take limit key = (.exhausted, s')) :
    (∀ k, s'.get k = s.get k) ∧ s'.keys = s.keys := by
  obtain ⟨-, hl, rfl⟩ := of_take h
  have hkey : key ∈ s.keys := mem_keys_of_ne_empty fun he => by
    rw [he] at hl
    exact absurd (hlimit.trans hl) (Nat.not_succ_le_zero 0)
  refine ⟨fun k => ?_, by rw [keys_put, if_pos hkey]⟩
  rw [get_put]
  split
  · next hk => rw [hk]
  · rfl

/-- Giving back a reservation undoes it. -/
theorem of_take_reserved (h : s.take limit key = (.reserved, s')) :
    (∀ k, ((s'.cancel key).forget key).get k = s.get k) ∧
      ((s'.cancel key).forget key).keys.Sublist s.keys := by
  obtain ⟨hi, -, rfl⟩ := of_take h
  have hslot : (⟨[], (s.get key).checkedOut⟩ : Slot α) = s.get key := by rw [← hi]
  have hget : ∀ k, (((s.put key ⟨[], (s.get key).checkedOut + 1⟩).cancel key).get k) =
      s.get k := by
    intro k
    by_cases hk : k = key
    · rw [hk, cancel, get_put_self, get_put_self]
      exact hslot
    · rw [cancel, get_put_of_ne hk, get_put_of_ne hk]
  refine ⟨fun k => by rw [get_forget, hget], ?_⟩
  by_cases hkey : key ∈ s.keys
  · refine (keys_forget_sublist _ key).trans ?_
    rw [cancel, keys_put, keys_put, if_pos hkey, if_pos hkey]
  · -- the slot was made by the reservation, and is unused without it
    have hu : (((s.put key ⟨[], (s.get key).checkedOut + 1⟩).cancel key).get key).isUnused := by
      rw [hget, isUnused_iff, get_of_notMem hkey]
    have hkeys : ((s.put key ⟨[], (s.get key).checkedOut + 1⟩).cancel key).keys =
        s.keys ++ [key] := by
      rw [cancel, keys_put, keys_put, if_neg hkey, if_pos (by simp)]
    rw [keys_forget, if_pos hu, hkeys, List.filter_append]
    simp

end Slots

/-- **A checkout that fails changes no slot and adds none.** -/
theorem SessionPool.acquire_error {p p' : SessionPool σ} {trace : Trace} {e : PoolError}
    (hlimit : 1 ≤ p.limit) (h : p.acquire key = (.error e, trace, p')) :
    (∀ k, p'.slots.get k = p.slots.get k) ∧ p'.slots.keys.Sublist p.slots.keys := by
  have hc : p.checkOut key = (.error e, trace, p') := by rw [checkOut, h]
  rcases p.checkOut_cases key with ⟨_, _, -, hx⟩ | ⟨slots, ht, hx⟩ | ⟨_, _, _, -, -, hx⟩ |
    ⟨_, slots, _, ht, -, hx⟩ <;> rw [hc] at hx <;> cases hx
  · obtain ⟨hget, hkeys⟩ := Slots.of_take_exhausted hlimit ht
    exact ⟨hget, hkeys ▸ List.Sublist.refl _⟩
  · exact Slots.of_take_reserved ht

namespace Interleaving

/-! ## Keys with a slot are built or asked for -/

/-- The key for which a thread is in the middle of a checkout. -/
def Task.asked : Task → List Text
  | resting => []
  | building key | forgetting key => [key]

/-- What is being built is asked for. -/
theorem pending_subset_asked (threads : List (Thread α)) :
    threads.flatMap (·.task.pending) ⊆ threads.flatMap (·.task.asked) := by
  intro k hk
  obtain ⟨t, ht, hk⟩ := List.mem_flatMap.1 hk
  refine List.mem_flatMap.2 ⟨t, ht, ?_⟩
  cases htask : t.task <;> simp_all [Task.pending, Task.asked]

namespace System

/-- The keys for which threads are in the middle of a checkout. -/
def asked (s : System α) : List Text := s.threads.flatMap (·.task.asked)

/-- No thread is in the middle of a checkout. -/
def AtRest (s : System α) : Prop := ∀ t ∈ s.threads, t.task = .resting

theorem AtRest.asked {s : System α} (h : s.AtRest) : s.asked = [] :=
  List.flatMap_eq_nil_iff.2 fun t ht => by rw [h t ht]; rfl

end System

/-- A slot in use belongs to a key that was built, or whose build has not finished. -/
theorem Conserved.built {slots : Slots (Built α)} {builds : List Text} {leases : List (Lease α)}
    {pending : List Text} (h : Conserved limit slots builds leases pending)
    (hk : slots.get key ≠ .empty) : key ∈ builds ∨ key ∈ pending := by
  rcases hs : slots.get key with ⟨_ | ⟨x, idle⟩, checkedOut⟩
  · have hpos : 0 < leases.countP (·.key = key) + pending.count key := by
      have hc := h.counted key
      rw [hs] at hc hk
      refine hc ▸ Nat.pos_of_ne_zero ?_
      rintro rfl
      exact hk rfl
    rcases Nat.eq_zero_or_pos (pending.count key) with hz | hp
    · rw [hz, Nat.add_zero, List.countP_pos_iff] at hpos
      obtain ⟨l, hl, hkey⟩ := hpos
      rw [decide_eq_true_eq] at hkey
      exact .inl (hkey ▸ List.mem_of_getElem? (h.lease_built l hl))
    · exact .inr (List.count_pos_iff.1 hp)
  · exact .inl (List.mem_of_getElem? (h.idle_built key x (by simp [hs])))

/-- Every key with a slot was built, or a thread is asking for it. -/
def Occupied (slots : Slots (Built α)) (builds asked : List Text) : Prop :=
  ∀ key ∈ slots.keys, key ∈ builds ∨ key ∈ asked

namespace Occupied
variable {slots : Slots (Built α)} {builds builds' asked asked' : List Text}

theorem mono (h : Occupied slots builds asked)
    (hsub : ∀ k, k ∈ builds ∨ k ∈ asked → k ∈ builds' ∨ k ∈ asked') :
    Occupied slots builds' asked' :=
  fun k hk => hsub k (h k hk)

theorem put (h : Occupied slots builds asked) (hkey : key ∈ builds ∨ key ∈ asked)
    (slot : Slot (Built α)) : Occupied (slots.put key slot) builds asked := by
  intro k hk
  rcases Slots.eq_or_mem_of_mem_keys_put hk with rfl | hk
  · exact hkey
  · exact h k hk

/-- **Every step leaves slots only to keys that were built or are asked for.** -/
theorem turn {a : Act α} {slots' : Slots (Built α)} {t t' : Thread α} {leases : List (Lease α)}
    {pending : List Text} (hlimit : 1 ≤ limit)
    (hc : Conserved limit slots builds (t.leases ++ leases) (t.task.pending ++ pending))
    (hpending : pending ⊆ asked) (h : Occupied slots builds (t.task.asked ++ asked))
    (ht : Turn limit a slots builds t slots' builds' t') :
    Occupied slots' builds' (t'.task.asked ++ asked) := by
  cases ht with
  | @reuse key x _ _ _ _ htake =>
    obtain ⟨idle, hi, rfl⟩ := Slots.of_take htake
    exact h.put (.inl (List.mem_of_getElem? (hc.idle_built key x (by simp [hi])))) _
  | reserve htake =>
    obtain ⟨-, -, rfl⟩ := Slots.of_take htake
    exact (h.mono fun k => Or.imp_right (List.mem_cons_of_mem _)).put (.inr List.mem_cons_self) _
  | @refuse key _ _ _ _ htake =>
    -- the slot is at its limit, so it was there before
    obtain ⟨-, hl, rfl⟩ := Slots.of_take htake
    refine h.put ((hc.built fun he => ?_).imp_right fun hp => hpending hp) _
    rw [he] at hl
    exact absurd (hlimit.trans hl) (Nat.not_succ_le_zero 0)
  | @build key _ _ _ session =>
    refine h.mono fun k hk => ?_
    rcases hk with hk | hk
    · exact .inl (List.mem_append_left _ hk)
    · rcases List.mem_cons.1 hk with rfl | hk
      · exact .inl (List.mem_append_right _ (List.mem_singleton_self _))
      · exact .inr hk
  | cancel => exact h.put (.inr List.mem_cons_self) _
  | @forget key _ _ _ =>
    intro k hk
    rcases h k ((Slots.keys_forget_sublist _ key).subset hk) with hb | ha
    · exact .inl hb
    · rcases List.mem_cons.1 ha with rfl | ha
      · exact (hc.built (Slots.ne_empty_of_mem_forget hk)).imp_right fun hp => hpending hp
      · exact .inr ha
  | use => exact h
  | @release key x _ _ _ before after reload reload' _ =>
    have hl := hc.lease_built ⟨key, x, reload⟩ (by simp)
    exact h.put (.inl (List.mem_of_getElem? hl)) _

/-- **In every reachable state, keys with a slot were built or are asked for.** -/
theorem reachable (hlimit : 1 ≤ limit) {s : System α} (h : Reachable limit n s) :
    Occupied s.slots s.builds s.asked := by
  induction h with
  | start => exact fun key hk => absurd hk List.not_mem_nil
  | step hr hs ih =>
    have hc := System.Conserved.reachable hr
    cases hs with
    | turn before after ht =>
      have hasked := flatMap_thread_perm (α := α) (·.task.asked) before after
      have hturn := turn hlimit
        (hc.perm (flatMap_thread_perm (·.leases) before after _)
          (flatMap_thread_perm (·.task.pending) before after _))
        (pending_subset_asked (before ++ after))
        (ih.mono fun k => Or.imp_right (hasked _).mem_iff.1) ht
      exact hturn.mono fun k => Or.imp_right (hasked _).mem_iff.2

end Occupied

/-! ## Pools of registered solutions -/

/-- Whether what a step builds, if it builds, is made by `makes`. -/
def Act.MadeBy (makes : Text → α → Prop) : Act α → Prop
  | .build key session => makes key session
  | _ => True

/-- The states that are reached if all sessions are made by `makes`. -/
inductive ReachableBy (makes : Text → α → Prop) (limit n : Nat) : System α → Prop where
  | start : ReachableBy makes limit n ⟨.empty, [], List.replicate n ⟨.resting, []⟩⟩
  | step {a : Act α} {s s' : System α} : ReachableBy makes limit n s → a.MadeBy makes →
      Step limit a s s' → ReachableBy makes limit n s'

namespace ReachableBy
variable {makes : Text → α → Prop} {s : System α}

theorem reachable (h : ReachableBy makes limit n s) : Reachable limit n s := by
  induction h with
  | start => exact .start
  | step _ _ hs ih => exact .step ih hs

/-- A key was built only if there is something to make for it. -/
theorem makes_of_mem (h : ReachableBy makes limit n s) :
    ∀ key ∈ s.builds, ∃ session, makes key session := by
  induction h with
  | start => exact fun key hk => absurd hk List.not_mem_nil
  | step _ ha hs ih =>
    cases hs with
    | turn before after ht =>
      cases ht with
      | build session =>
        intro k hk
        rcases List.mem_append.1 hk with hk | hk
        · exact ih k hk
        · exact List.mem_singleton.1 hk ▸ ⟨session, ha⟩
      | _ => exact ih

end ReachableBy

end Interleaving

namespace Registry

/-- What a workshop may build from the registered solutions. -/
def Makes (registry : Registry σ) (key : Text) (session : Session σ) : Prop :=
  ∃ w : Workshop σ, w.registry = registry ∧ (w.build key).1 = .ok session

/-- A session is built only for a key that asks for a registered solution. -/
theorem Makes.solutionName_mem {registry : Registry σ} {session : Session σ}
    (h : registry.Makes key session) : solutionName key ∈ registry.solutions.map (·.name) := by
  obtain ⟨w, rfl, hb⟩ := h
  have hf := Workshop.solution_of_build hb
  rw [get?] at hf
  exact List.mem_map.2 ⟨_, List.mem_of_find?_eq_some hf, by simpa using List.find?_some hf⟩

/-- A solution is asked for by its name, with the ending for debugger hooks or without. -/
theorem eq_or_eq_append_of_solutionName {name : Text} (h : solutionName key = name) :
    key = name ∨ key = name ++ nodebugSuffix := by
  unfold solutionName at h
  cases hd : dropEnd? nodebugSuffix key with
  | none => exact .inl (by simpa [hd] using h)
  | some t =>
    rw [hd, Option.getD_some] at h
    exact .inr (h ▸ dropEnd?_eq_some_iff.1 hd)

/-- Of distinct keys, at most two ask for one solution. -/
theorem length_filter_solutionName_le {keys : List Text} (h : keys.Nodup) (name : Text) :
    (keys.filter (solutionName · = name)).length ≤ 2 := by
  have hsub : keys.filter (solutionName · = name) ⊆ [name, name ++ nodebugSuffix] := by
    intro k hk
    obtain ⟨-, hname⟩ := List.mem_filter.1 hk
    rw [decide_eq_true_eq] at hname
    rcases eq_or_eq_append_of_solutionName hname with rfl | rfl <;> simp
  exact (List.subperm_of_subset (h.filter _) hsub).length_le

/-- Distinct keys that ask for registered solutions are at most twice as many as these. -/
theorem length_keys_le {registry : Registry σ} {keys : List Text} (h : keys.Nodup)
    (hkeys : ∀ key ∈ keys, solutionName key ∈ registry.solutions.map (·.name)) :
    keys.length ≤ 2 * registry.solutions.length := by
  have hname : ∀ name ∈ (registry.solutions.map (·.name)).toFinset,
      (keys.toFinset.filter (solutionName · = name)).card ≤ 2 := by
    intro name _
    have hf : keys.toFinset.filter (solutionName · = name) =
        (keys.filter (solutionName · = name)).toFinset := by simp [List.toFinset_filter]
    rw [hf]
    exact (List.toFinset_card_le _).trans (length_filter_solutionName_le h name)
  calc keys.length = keys.toFinset.card := (List.toFinset_card_of_nodup h).symm
    _ ≤ 2 * (registry.solutions.map (·.name)).toFinset.card :=
      Finset.card_le_mul_card_image_of_maps_to
        (fun key hkey => List.mem_toFinset.2 (hkeys key (List.mem_toFinset.1 hkey))) 2 hname
    _ ≤ 2 * (registry.solutions.map (·.name)).length :=
      Nat.mul_le_mul_left 2 (List.toFinset_card_le _)
    _ = 2 * registry.solutions.length := by rw [List.length_map]

end Registry

/-! ## The bound -/

namespace Interleaving

/-- **A checkout that fails leaves no trace, and clients cannot make a pool grow.**  At rest, only
    keys for which a session was built have a slot; so there are at most two slots for each
    registered solution. -/
theorem slots_occupied (hlimit : 1 ≤ limit) :
    (∀ (p p' : SessionPool σ) (key : Text) (e : PoolError) (trace : Trace), p.limit = limit →
      p.acquire key = (.error e, trace, p') →
        (∀ k, p'.slots.get k = p.slots.get k) ∧ p'.slots.keys.Sublist p.slots.keys) ∧
    (∀ s : System α, Reachable limit n s → s.AtRest → ∀ key ∈ s.slots.keys, key ∈ s.builds) ∧
    ∀ (registry : Registry σ) (s : System (Session σ)),
      ReachableBy registry.Makes limit n s →
        (∀ name, (s.slots.keys.filter (Registry.solutionName · = name)).length ≤ 2) ∧
        (s.AtRest → s.slots.size ≤ 2 * registry.solutions.length) := by
  have hbuilt : ∀ {β : Type} (s : System β), Reachable limit n s → s.AtRest →
      ∀ key ∈ s.slots.keys, key ∈ s.builds := by
    intro β s hs hrest key hkey
    rcases Occupied.reachable hlimit hs key hkey with hb | ha
    · exact hb
    · rw [hrest.asked] at ha
      exact absurd ha List.not_mem_nil
  refine ⟨fun p p' key e trace hp h => SessionPool.acquire_error (hp ▸ hlimit) h, hbuilt, ?_⟩
  intro registry s hs
  have hnodup := (System.Conserved.reachable hs.reachable).nodup_keys
  refine ⟨Registry.length_filter_solutionName_le hnodup, fun hrest => ?_⟩
  rw [Slots.size, ← List.length_map (f := (·.1))]
  refine Registry.length_keys_le hnodup fun key hkey => ?_
  obtain ⟨session, hm⟩ := hs.makes_of_mem key (hbuilt s hs.reachable hrest key hkey)
  exact hm.solutionName_mem

/-- A thread asks for a session of `g`, which no solution is registered for, and then has one of `k`
    and brings it back; a pool refuses `g` as well. -/
theorem slots_occupied_unknown :
    let registry : Registry Unit := ⟨[.new ['k']]⟩
    let s : System (Session Unit) :=
      ⟨⟨[(['k'], ⟨[⟨0, .new (.new ['k'])⟩], 0⟩)]⟩, [['k']], [⟨.resting, []⟩]⟩
    let p : SessionPool Unit := .new 1 ⟨registry, []⟩
    (ReachableBy registry.Makes 1 1 s ∧ s.AtRest ∧ s.slots.keys = [['k']] ∧
      (∀ key ∈ s.slots.keys, key ∈ s.builds) ∧ s.slots.size ≤ 2 * 1) ∧
    (p.acquire ['g']).1 = .error (.unknownSolution ['g']) ∧
      (p.acquire ['g']).2.2.slots.keys.Sublist p.slots.keys := by
  intro registry s p
  obtain ⟨herror, hbuilt, hbound⟩ := @slots_occupied Unit (Session Unit) 1 1 (Nat.le_refl 1)
  have hs : ReachableBy registry.Makes 1 1 s := by
    have hforgotten : ReachableBy registry.Makes 1 1 ⟨.empty, [], [⟨.resting, []⟩]⟩ :=
      .step (a := .forget ['g']) (.step (a := .cancel ['g']) (.step (a := .take ['g']) .start
        trivial (.turn [] [] (@Turn.reserve _ 1 ['g'] _ _ _ _ rfl)))
        trivial (.turn [] [] .cancel)) trivial (.turn [] [] .forget)
    have hreserved := ReachableBy.step (a := .take ['k']) hforgotten trivial
      (.turn [] [] (@Turn.reserve _ 1 ['k'] _ _ _ _ rfl))
    have hout := ReachableBy.step (a := .build ['k'] (.new (.new ['k']))) hreserved
      ⟨⟨registry, []⟩, rfl, rfl⟩ (.turn [] [] (.build _))
    exact .step (a := .release ['k'] false) hout trivial
      (.turn [] [] (@Turn.release _ 1 ['k'] _ _ _ _ [] [] false false id))
  have hrest : s.AtRest := fun t ht => by rw [List.mem_singleton.1 ht]
  exact ⟨⟨hs, hrest, rfl, hbuilt s hs.reachable hrest, (hbound registry s hs).2 hrest⟩, rfl,
    (herror p _ ['g'] _ _ rfl rfl).2⟩

end Interleaving

end SessionGateway
