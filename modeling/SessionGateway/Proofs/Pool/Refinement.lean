/-
  Refinement — what a pool does for one request is a run of the steps of one thread.

  A pool and a system of threads have the same slots once the numbers of the sessions are
  forgotten (`Slots.map`), and every step on slots commutes with forgetting them.

  * `checkOut_refined`: a checkout takes a thread from rest to rest, with one more lease if
    there is a session and with none if there is not;
  * `checkIn_refined`: bringing back a session ends the lease of it;
  * `Refines.counted`: what is conserved in the system holds of the pool.
-/
import Mathlib.Logic.Relation
import SessionGateway.Proofs.Pool.Checkout
import SessionGateway.Proofs.Pool.Conservation

namespace SessionGateway

variable {σ α β : Type}

/-! ## Other sessions in the same slots -/

/-- The slot with another session in the place of each. -/
def Slot.map (f : α → β) (s : Slot α) : Slot β := ⟨s.idle.map f, s.checkedOut⟩

def Taken.map (f : α → β) : Taken α → Taken β
  | reused x => reused (f x)
  | reserved => reserved
  | exhausted => exhausted

namespace Slots

/-- The slots with another session in the place of each. -/
def map (f : α → β) (s : Slots α) : Slots β := ⟨s.entries.map fun e => (e.1, e.2.map f)⟩

variable (f : α → β) (s : Slots α) (key : Text)

theorem get_map : (s.map f).get key = (s.get key).map f := by
  obtain ⟨es⟩ := s
  simp only [get, get?, map]
  induction es with
  | nil => rfl
  | cons e es ih =>
    rw [List.map_cons, List.lookup_cons, List.lookup_cons]
    cases hk : key == e.1 with
    | true => rfl
    | false => exact ih

theorem put_map (slot : Slot α) : (s.map f).put key (slot.map f) = (s.put key slot).map f := by
  obtain ⟨es⟩ := s
  simp only [put, map, mk.injEq]
  induction es with
  | nil => rfl
  | cons e es ih =>
    rw [List.map_cons, putEntry, putEntry]
    by_cases hk : e.1 = key
    · rw [if_pos hk, if_pos hk]
      rfl
    · rw [if_neg hk, if_neg hk, ih]
      rfl

theorem take_map (limit : Nat) :
    (s.map f).take limit key = ((s.take limit key).1.map f, (s.take limit key).2.map f) := by
  unfold take
  rw [get_map]
  obtain ⟨idle, checkedOut⟩ := s.get key
  cases idle with
  | cons x idle => exact congrArg (Prod.mk _) (put_map f s key ⟨idle, checkedOut + 1⟩)
  | nil =>
    simp only [Slot.map, List.map_nil]
    split
    · exact congrArg (Prod.mk _) (put_map f s key ⟨[], checkedOut⟩)
    · exact congrArg (Prod.mk _) (put_map f s key ⟨[], checkedOut + 1⟩)

theorem cancel_map : (s.map f).cancel key = (s.cancel key).map f := by
  simp only [cancel, get_map, ← put_map]
  rfl

theorem forget_map : (s.map f).forget key = (s.forget key).map f := by
  have hu : ((s.get key).map f).isUnused = (s.get key).isUnused := by
    simp [Slot.map, Slot.isUnused, List.isEmpty_map]
  unfold forget
  rw [get_map, hu]
  split
  · simp [map, List.filter_map, Function.comp_def]
  · rfl

theorem release_map (x : α) (reload : Bool) :
    (s.map f).release key (f x) reload = (s.release key x reload).map f := by
  simp only [release, get_map, ← put_map]
  cases reload <;> rfl

end Slots

/-! ## Runs of a thread -/

namespace Interleaving

/-- Any number of steps. -/
def Run (limit : Nat) : System α → System α → Prop :=
  Relation.ReflTransGen fun s s' => ∃ a, Step limit a s s'

theorem Reachable.run {limit n : Nat} {s s' : System α} (h : Reachable limit n s)
    (hr : Run limit s s') : Reachable limit n s' := by
  induction hr with
  | refl => exact h
  | tail _ hs ih =>
    obtain ⟨a, hs⟩ := hs
    exact .step ih hs

end Interleaving

namespace SessionPool

open Interleaving

/-- The guard of a lease. -/
def guardOf (l : Lease (Session σ)) : Guard σ := ⟨l.key, l.held.session, l.reload⟩

section
variable {p : SessionPool σ} {slots : Slots (Built (Session σ))} (builds : List Text)
  (before after : List (Thread (Session σ))) (leases : List (Lease (Session σ)))

/-- **A checkout is a run of the steps of one thread**, from rest to rest. -/
theorem checkOut_refined (hp : slots.map (·.session) = p.slots) (key : Text) :
    ∃ slots' builds' leases',
      Run p.limit ⟨slots, builds, before ++ ⟨.resting, leases⟩ :: after⟩
        ⟨slots', builds', before ++ ⟨.resting, leases'⟩ :: after⟩ ∧
      slots'.map (·.session) = (p.checkOut key).2.2.slots ∧
      match (p.checkOut key).1 with
      | .ok guard => ∃ l, leases' = l :: leases ∧ guardOf l = guard
      | .error _ => leases' = leases := by
  have htake := slots.take_map (·.session) key p.limit
  rw [hp] at htake
  -- the two take the same, so the other combinations of their cases clash
  rcases hs : slots.take p.limit key with ⟨x | _ | _, slots'⟩ <;> rw [hs] at htake <;>
    rcases p.checkOut_cases key with ⟨session, rest, ht, hc⟩ | ⟨rest, ht, hc⟩ |
      ⟨session, rest, workshop, ht, hb, hc⟩ | ⟨e, rest, workshop, ht, hb, hc⟩ <;>
    rw [htake] at ht <;> cases ht <;> rw [hc]
  · exact ⟨slots', builds, _, .single ⟨_, .turn before after (.reuse hs)⟩, rfl, _, rfl, rfl⟩
  · refine ⟨slots', builds ++ [key], _, ?_, rfl, ⟨key, ⟨builds.length, session⟩, false⟩, rfl, rfl⟩
    exact .tail (.single ⟨_, .turn before after (.reserve hs)⟩)
      ⟨_, .turn before after (.build session)⟩
  · refine ⟨(slots'.cancel key).forget key, builds, leases, ?_, ?_, rfl⟩
    · exact .tail (.tail (.single ⟨_, .turn before after (.reserve hs)⟩)
        ⟨_, .turn before after .cancel⟩) ⟨_, .turn before after .forget⟩
    · rw [← Slots.forget_map, ← Slots.cancel_map]
  · exact ⟨slots', builds, leases, .single ⟨_, .turn before after (.refuse hs)⟩, rfl, rfl⟩

/-- **Bringing back a session ends its lease**, whatever became of the session in between. -/
theorem checkIn_refined (hp : slots.map (·.session) = p.slots) (l : Lease (Session σ))
    (leases' : List (Lease (Session σ))) (session : Session σ) {reload : Bool}
    (hr : l.reload → reload) :
    ∃ slots', Run p.limit ⟨slots, builds, before ++ ⟨.resting, leases ++ l :: leases'⟩ :: after⟩
        ⟨slots', builds, before ++ ⟨.resting, leases ++ leases'⟩ :: after⟩ ∧
      slots'.map (·.session) = (p.checkIn ⟨l.key, session, reload⟩).2.slots := by
  refine ⟨slots.release l.key ⟨l.held.number, session⟩ reload, ?_, ?_⟩
  · exact .tail (.single ⟨_, .turn before after (.use session reload hr)⟩)
      ⟨_, .turn before after (.release reload id)⟩
  · rw [← Slots.release_map, hp]
    rfl

end

/-! ## Pools and the systems that they refine -/

/-- A pool refines a system of one thread, at rest, with the leases of the sessions that are
    out. -/
def Refines (p : SessionPool σ) (held : List (Guard σ)) : Prop :=
  ∃ slots builds leases, Reachable p.limit 1 ⟨slots, builds, [⟨.resting, leases⟩]⟩ ∧
    slots.map (·.session) = p.slots ∧ leases.map guardOf = held

namespace Refines
variable {p : SessionPool σ} {held held' : List (Guard σ)}

theorem new (limit : Nat) (workshop : Workshop σ) : (SessionPool.new limit workshop).Refines [] :=
  ⟨.empty, [], [], .start, rfl, rfl⟩

theorem checkOut (h : p.Refines held) (key : Text) :
    (p.checkOut key).2.2.Refines
      (match (p.checkOut key).1 with
        | .ok guard => guard :: held
        | .error _ => held) := by
  obtain ⟨slots, builds, leases, hr, hp, rfl⟩ := h
  obtain ⟨slots', builds', leases', hrun, hp', hl⟩ := checkOut_refined builds [] [] leases hp key
  refine ⟨slots', builds', leases', ?_, hp', ?_⟩
  · rw [limit_checkOut]
    exact hr.run hrun
  · cases hc : (p.checkOut key).1 with
    | error e =>
      rw [hc] at hl
      rw [hl]
    | ok guard =>
      rw [hc] at hl
      obtain ⟨l, rfl, rfl⟩ := hl
      rfl

theorem checkIn {guard : Guard σ} (h : p.Refines (held ++ guard :: held')) (session : Session σ)
    {reload : Bool} (hr : guard.reload → reload) :
    (p.checkIn { guard with session, reload }).2.Refines (held ++ held') := by
  obtain ⟨slots, builds, leases, hreach, hp, hl⟩ := h
  obtain ⟨before, rest, rfl, rfl, hrest⟩ := List.map_eq_append_iff.1 hl
  obtain ⟨l, after, rfl, rfl, rfl⟩ := List.map_eq_cons_iff.1 hrest
  obtain ⟨slots', hrun, hp'⟩ := checkIn_refined builds [] [] before hp l after session hr
  exact ⟨slots', builds, before ++ after, hreach.run hrun, hp', List.map_append⟩

/-- **The checkouts of a key are the sessions of it that are out**, and within the limit. -/
theorem counted (h : p.Refines held) (key : Text) :
    (p.slots.get key).checkedOut = held.countP (·.key = key) ∧
      (p.slots.get key).idle.length + (p.slots.get key).checkedOut ≤ p.limit := by
  obtain ⟨slots, builds, leases, hreach, hp, rfl⟩ := h
  have hc := System.Conserved.reachable hreach
  have hk := hc.counted key
  have hb := hc.bounded key
  rw [← hp, Slots.get_map]
  simp only [System.leases, System.pending, Task.pending, List.flatMap_cons, List.flatMap_nil,
    List.append_nil, List.count_nil, Nat.add_zero] at hk
  refine ⟨?_, by simpa [Slot.map] using hb⟩
  rw [List.countP_map]
  exact hk

end Refines

end SessionPool

end SessionGateway
