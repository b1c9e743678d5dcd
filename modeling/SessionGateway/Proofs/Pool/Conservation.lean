/-
  Conservation — what a shared pool keeps true under every interleaving.

  `Conserved` is the invariant, over the leases and the pending reservations of all threads:
  the count of every key is the number of both, idle sessions and checkouts are within the
  limit, and every session is in one place, under the key for which it was built.  Each step
  keeps it (`Conserved.turn`), hence it holds in every reachable state
  (`System.Conserved.reachable`).

  * `sessions_conserved`: the counts, the limit and the places of the sessions, and that no
    count is zero when it is made one less.
-/
import SessionGateway.Proofs.Pool.Interleaving

namespace SessionGateway.Interleaving

variable {α : Type} {limit n : Nat}

theorem getElem?_append_of_eq_some {xs ys : List Text} {i : Nat} {x : Text}
    (h : xs[i]? = some x) : (xs ++ ys)[i]? = some x := by
  rw [List.getElem?_append_left (List.getElem?_eq_some_iff.1 h).1, h]

/-- The invariant of the slots and builds of a pool, for the leases and the pending reservations
    of its threads. -/
structure Conserved (limit : Nat) (slots : Slots (Built α)) (builds : List Text)
    (leases : List (Lease α)) (pending : List Text) : Prop where
  nodup_keys : slots.keys.Nodup
  counted : ∀ key, (slots.get key).checkedOut =
    leases.countP (·.key = key) + pending.count key
  bounded : ∀ key, (slots.get key).idle.length + (slots.get key).checkedOut ≤ limit
  once : ((slots.sessions ++ leases.map (·.held)).map (·.number)).Nodup
  idle_built : slots.AllIdle fun key x => builds[x.number]? = some key
  lease_built : ∀ l ∈ leases, builds[l.held.number]? = some l.key

namespace Conserved

variable {slots : Slots (Built α)} {builds : List Text} {leases leases' : List (Lease α)}
  {pending pending' : List Text} {key : Text}

/-- The order of the leases and of the reservations does not matter. -/
theorem perm (h : Conserved limit slots builds leases pending) (hl : leases.Perm leases')
    (hp : pending.Perm pending') : Conserved limit slots builds leases' pending' where
  nodup_keys := h.nodup_keys
  counted k := by rw [h.counted, hl.countP_eq, hp.count_eq]
  bounded := h.bounded
  once := (((hl.map _).append_left _).map _).nodup h.once
  idle_built := h.idle_built
  lease_built l hm := h.lease_built l (hl.mem_iff.2 hm)

/-- No session is twice among the idle ones of a key, those of the other keys and those out. -/
theorem once_at (h : Conserved limit slots builds leases pending) (key : Text) :
    (((slots.get key).idle ++ slots.elsewhere key ++ leases.map (·.held)).map (·.number)).Nodup :=
  (((Slots.sessions_perm h.nodup_keys key).append_right _).map _).nodup h.once

/-- A session that is idle somewhere was built. -/
theorem number_lt (h : Conserved limit slots builds leases pending) {x : Built α}
    (hx : x ∈ slots.sessions ++ leases.map (·.held)) : x.number < builds.length := by
  rcases List.mem_append.1 hx with hx | hx
  · obtain ⟨key, hx⟩ := Slots.mem_sessions h.nodup_keys hx
    exact (List.getElem?_eq_some_iff.1 (h.idle_built key x hx)).1
  · obtain ⟨l, hl, rfl⟩ := List.mem_map.1 hx
    exact (List.getElem?_eq_some_iff.1 (h.lease_built l hl)).1

/-- Putting a slot for one key asks only that this key stays in balance. -/
theorem put (h : Conserved limit slots builds leases pending) {slot : Slot (Built α)}
    (others : ∀ k, k ≠ key → leases'.countP (·.key = k) + pending'.count k =
      leases.countP (·.key = k) + pending.count k)
    (counted : slot.checkedOut = leases'.countP (·.key = key) + pending'.count key)
    (bounded : slot.idle.length + slot.checkedOut ≤ limit)
    (once : ((slot.idle ++ slots.elsewhere key ++ leases'.map (·.held)).map (·.number)).Nodup)
    (idle_built : ∀ x ∈ slot.idle, builds[x.number]? = some key)
    (lease_built : ∀ l ∈ leases', builds[l.held.number]? = some l.key) :
    Conserved limit (slots.put key slot) builds leases' pending' where
  nodup_keys := Slots.nodup_keys_put h.nodup_keys key slot
  counted k := by
    by_cases hk : k = key
    · rw [hk, Slots.get_put_self, counted]
    · rw [Slots.get_put_of_ne hk, others k hk, h.counted]
  bounded k := by
    by_cases hk : k = key
    · rw [hk, Slots.get_put_self]; exact bounded
    · rw [Slots.get_put_of_ne hk]; exact h.bounded k
  once := (((Slots.sessions_put h.nodup_keys key slot).append_right _).map _).symm.nodup once
  idle_built := h.idle_built.put idle_built
  lease_built := lease_built

/-! ## Steps -/

theorem reuse (h : Conserved limit slots builds leases pending) {x : Built α}
    {idle : List (Built α)} (hi : (slots.get key).idle = x :: idle) :
    Conserved limit (slots.put key ⟨idle, (slots.get key).checkedOut + 1⟩) builds
      (⟨key, x, false⟩ :: leases) pending := by
  have hb := h.bounded key
  have hx := h.idle_built key x (by simp [hi])
  refine h.put (fun k hk => ?_) ?_ ?_ ?_ (fun y hy => h.idle_built key y (by simp [hi, hy])) ?_
  · simp [Ne.symm hk]
  · simp [h.counted key, Nat.add_right_comm]
  · simp only [hi, List.length_cons] at hb
    simp only
    omega
  · refine List.Perm.nodup (List.Perm.map _ ?_) (h.once_at key)
    have hp : (idle ++ slots.elsewhere key ++ x :: leases.map (·.held)).Perm
        (x :: (idle ++ slots.elsewhere key ++ leases.map (·.held))) := List.perm_middle
    simpa [hi] using hp.symm
  · intro l hl
    rcases List.mem_cons.1 hl with rfl | hl
    · exact hx
    · exact h.lease_built l hl

theorem reserve (h : Conserved limit slots builds leases pending)
    (hi : (slots.get key).idle = []) (hl : (slots.get key).checkedOut < limit) :
    Conserved limit (slots.put key ⟨[], (slots.get key).checkedOut + 1⟩) builds leases
      (key :: pending) := by
  refine h.put (fun k hk => ?_) ?_ ?_ ?_ (by simp) h.lease_built
  · simp [List.count_cons_of_ne (Ne.symm hk)]
  · simp [h.counted key, Nat.add_assoc]
  · simp only [List.length_nil]
    omega
  · simpa [hi] using h.once_at key

theorem refuse (h : Conserved limit slots builds leases pending) :
    Conserved limit (slots.put key (slots.get key)) builds leases pending :=
  h.put (fun _ _ => rfl) (h.counted key) (h.bounded key) (h.once_at key) (h.idle_built key)
    h.lease_built

theorem build (h : Conserved limit slots builds leases (key :: pending)) (session : α) :
    Conserved limit slots (builds ++ [key])
      (⟨key, ⟨builds.length, session⟩, false⟩ :: leases) pending where
  nodup_keys := h.nodup_keys
  counted k := by
    have hc := h.counted k
    by_cases hk : key = k
    · subst hk
      simp only [List.count_cons_self] at hc
      simp only [List.countP_cons, decide_true, if_true]
      omega
    · simpa [List.countP_cons, hk, List.count_cons_of_ne hk] using hc
  bounded := h.bounded
  once := by
    -- the new session has a number that no other has
    have hnew : builds.length ∉
        (slots.sessions ++ leases.map (·.held)).map (·.number) := by
      intro hm
      obtain ⟨x, hx, hn⟩ := List.mem_map.1 hm
      exact absurd (h.number_lt hx) (by omega)
    refine List.Perm.nodup ?_ (List.nodup_cons.2 ⟨hnew, h.once⟩)
    rw [List.map_append, List.map_append]
    exact List.perm_middle.symm
  idle_built k x hx := getElem?_append_of_eq_some (h.idle_built k x hx)
  lease_built l hl := by
    rcases List.mem_cons.1 hl with rfl | hl
    · simp
    · exact getElem?_append_of_eq_some (h.lease_built l hl)

theorem cancel (h : Conserved limit slots builds leases (key :: pending)) :
    Conserved limit (slots.cancel key) builds leases pending := by
  have hc := h.counted key
  have hb := h.bounded key
  -- the reservation that is given back is still counted, so nothing is cut off at zero
  rw [List.count_cons_self] at hc
  refine h.put (fun k hk => ?_) ?_ ?_ (h.once_at key) (h.idle_built key) h.lease_built
  · simp [List.count_cons_of_ne (Ne.symm hk)]
  · simp only
    omega
  · simp only
    omega

theorem forget (h : Conserved limit slots builds leases pending) :
    Conserved limit (slots.forget key) builds leases pending where
  nodup_keys := Slots.nodup_keys_forget h.nodup_keys key
  counted k := by rw [Slots.get_forget, h.counted]
  bounded k := by rw [Slots.get_forget]; exact h.bounded k
  once := (((Slots.sessions_forget h.nodup_keys key).append_right _).map _).symm.nodup h.once
  idle_built := h.idle_built.forget
  lease_built := h.lease_built

theorem use {x : Built α} {reload : Bool}
    (h : Conserved limit slots builds (⟨key, x, reload⟩ :: leases) pending) (session : α)
    (reload' : Bool) :
    Conserved limit slots builds (⟨key, ⟨x.number, session⟩, reload'⟩ :: leases) pending where
  nodup_keys := h.nodup_keys
  counted k := by rw [h.counted k, List.countP_cons, List.countP_cons]
  bounded := h.bounded
  once := by simpa using h.once
  idle_built := h.idle_built
  lease_built l hl := by
    rcases List.mem_cons.1 hl with rfl | hl
    · exact h.lease_built ⟨key, x, reload⟩ (by simp)
    · exact h.lease_built l (List.mem_cons_of_mem _ hl)

theorem release {x : Built α} {reload : Bool}
    (h : Conserved limit slots builds (⟨key, x, reload⟩ :: leases) pending) (reload' : Bool) :
    Conserved limit (slots.release key x reload') builds leases pending := by
  have hc := h.counted key
  have hb := h.bounded key
  have hx : builds[x.number]? = some key := h.lease_built ⟨key, x, reload⟩ (by simp)
  -- the session that comes back is in none of the places that stay
  have ho : ((x :: ((slots.get key).idle ++ slots.elsewhere key ++
      leases.map (·.held))).map (·.number)).Nodup :=
    (List.perm_middle.map _).nodup (h.once_at key)
  simp only [List.countP_cons, decide_true, if_true] at hc
  refine h.put (fun k hk => ?_) ?_ ?_ ?_ ?_ fun l hl => h.lease_built l (List.mem_cons_of_mem _ hl)
  · simp [Ne.symm hk]
  · simp only
    omega
  · cases reload' <;> simp <;> omega
  · cases reload' with
    | true => exact (List.nodup_cons.1 ho).2
    | false => exact ho
  · intro y hy
    cases reload' with
    | true => exact h.idle_built key y (by simpa using hy)
    | false =>
      rcases List.mem_cons.1 (by simpa using hy) with rfl | hy
      · exact hx
      · exact h.idle_built key y hy

/-- **Every step keeps the balance**, whatever leases and reservations the other threads have. -/
theorem turn {a : Act α} {slots' : Slots (Built α)} {builds' : List Text} {t t' : Thread α}
    (h : Conserved limit slots builds (t.leases ++ leases) (t.task.pending ++ pending))
    (ht : Turn limit a slots builds t slots' builds' t') :
    Conserved limit slots' builds' (t'.leases ++ leases) (t'.task.pending ++ pending) := by
  cases ht with
  | reuse htake =>
    obtain ⟨idle, hi, rfl⟩ := Slots.of_take htake
    exact h.reuse hi
  | reserve htake =>
    obtain ⟨hi, hl, rfl⟩ := Slots.of_take htake
    exact h.reserve hi hl
  | refuse htake =>
    obtain ⟨-, -, rfl⟩ := Slots.of_take htake
    exact h.refuse
  | build session => exact h.build session
  | cancel => exact h.cancel
  | forget => exact h.forget
  | @use key x _ _ task before after reload session reload' _ =>
    have hl : Conserved limit slots builds (⟨key, x, reload⟩ :: (before ++ after ++ leases))
        (task.pending ++ pending) := h.perm (by simp) (.refl _)
    exact (hl.use session reload').perm (by simpa using List.perm_middle.symm) (.refl _)
  | @release key x _ _ task before after reload reload' _ =>
    have hl : Conserved limit slots builds (⟨key, x, reload⟩ :: (before ++ after ++ leases))
        (task.pending ++ pending) := h.perm (by simp) (.refl _)
    exact hl.release reload'

end Conserved

namespace System

/-- The invariant of a pool and its threads. -/
def Conserved (limit : Nat) (s : System α) : Prop :=
  Interleaving.Conserved limit s.slots s.builds s.leases s.pending

theorem leases_replicate (slots : Slots (Built α)) (builds : List Text) :
    (⟨slots, builds, .replicate n ⟨.resting, []⟩⟩ : System α).leases = [] := by
  simp [leases, List.flatMap_eq_nil_iff]

theorem pending_replicate (slots : Slots (Built α)) (builds : List Text) :
    (⟨slots, builds, .replicate n ⟨.resting, []⟩⟩ : System α).pending = [] := by
  simp [pending, Task.pending, List.flatMap_eq_nil_iff]

theorem conserved_start :
    Conserved limit (⟨.empty, [], .replicate n ⟨.resting, []⟩⟩ : System α) := by
  rw [Conserved, leases_replicate, pending_replicate]
  exact
    { nodup_keys := .nil
      counted := fun key => by simp [Slot.empty]
      bounded := fun key => by simp [Slot.empty]
      once := .nil
      idle_built := fun key x hx => by simp [Slot.empty] at hx
      lease_built := fun l hl => by simp at hl }

theorem Conserved.step {s s' : System α} {a : Act α} (h : s.Conserved limit)
    (hs : Step limit a s s') : s'.Conserved limit := by
  cases hs with
  | turn before after ht =>
    have hb := Interleaving.Conserved.perm h (flatMap_thread_perm (·.leases) before after _)
      (flatMap_thread_perm (·.task.pending) before after _)
    exact (hb.turn ht).perm (flatMap_thread_perm (·.leases) before after _).symm
      (flatMap_thread_perm (·.task.pending) before after _).symm

theorem Conserved.reachable {s : System α} (h : Reachable limit n s) : s.Conserved limit := by
  induction h with
  | start => exact conserved_start
  | step _ hs ih => exact ih.step hs

end System

/-! ## Decrements -/

/-- A step that makes a count one less is taken by a thread that is counted. -/
theorem Turn.decrement {a : Act α} {slots slots' : Slots (Built α)} {builds builds' : List Text}
    {t t' : Thread α} {key : Text} (ht : Turn limit a slots builds t slots' builds' t')
    (ha : a.decrements? = some key) :
    1 ≤ t.leases.countP (·.key = key) + t.task.pending.count key ∧
      (slots'.get key).checkedOut = (slots.get key).checkedOut - 1 := by
  cases ht <;> simp only [Act.decrements?, Option.some.injEq, reduceCtorEq] at ha <;> subst ha
  · exact ⟨by simp [Task.pending], by simp [Slots.cancel]⟩
  · refine ⟨?_, by simp [Slots.release]⟩
    simp only [List.countP_append, List.countP_cons, decide_true, if_true]
    omega

theorem Step.decrement {a : Act α} {s s' : System α} {key : Text} (hs : Step limit a s s')
    (ha : a.decrements? = some key) :
    1 ≤ s.leases.countP (·.key = key) + s.pending.count key ∧
      (s'.slots.get key).checkedOut = (s.slots.get key).checkedOut - 1 := by
  cases hs with
  | turn before after ht =>
    obtain ⟨hp, hc⟩ := ht.decrement ha
    refine ⟨?_, hc⟩
    rw [System.leases, System.pending, (flatMap_thread_perm _ before after _).countP_eq,
      (flatMap_thread_perm _ before after _).count_eq, List.countP_append, List.count_append]
    omega

/-- **A shared pool conserves its sessions**, in every order of the steps of its threads. -/
theorem sessions_conserved {s : System α} (h : Reachable limit n s) :
    (∀ key, (s.slots.get key).checkedOut =
      s.leases.countP (·.key = key) + s.pending.count key) ∧
    (∀ key, (s.slots.get key).idle.length + (s.slots.get key).checkedOut ≤ limit) ∧
    ((s.sessions.map (·.number)).Nodup ∧
      (∀ key, ∀ x ∈ (s.slots.get key).idle, s.builds[x.number]? = some key) ∧
      ∀ l ∈ s.leases, s.builds[l.held.number]? = some l.key) ∧
    ∀ (a : Act α) (s' : System α) (key : Text), Step limit a s s' → a.decrements? = some key →
      1 ≤ (s.slots.get key).checkedOut ∧
        (s'.slots.get key).checkedOut + 1 = (s.slots.get key).checkedOut := by
  have hc := System.Conserved.reachable h
  refine ⟨hc.counted, hc.bounded, ⟨hc.once, hc.idle_built, hc.lease_built⟩, ?_⟩
  intro a s' key hs ha
  obtain ⟨hp, hd⟩ := hs.decrement ha
  have hk := hc.counted key
  omega

/-- Two threads: the session of one is out, that of the other is being built. -/
theorem sessions_conserved_two_threads :
    Reachable 2 2 (⟨⟨[(['k'], ⟨[], 2⟩)]⟩, [['k']],
      [⟨.resting, [⟨['k'], ⟨0, 7⟩, false⟩]⟩, ⟨.building ['k'], []⟩]⟩ : System Nat) ∧
    (Slots.get (α := Built Nat) ⟨[(['k'], ⟨[], 2⟩)]⟩ ['k']).checkedOut = 1 + 1 := by
  have hr : Reachable 2 2 (⟨⟨[(['k'], ⟨[], 2⟩)]⟩, [['k']],
      [⟨.resting, [⟨['k'], ⟨0, 7⟩, false⟩]⟩, ⟨.building ['k'], []⟩]⟩ : System Nat) :=
    .step (.step (.step .start (.turn [] [_] (@Turn.reserve Nat 2 ['k'] _ _ _ _ rfl)))
      (.turn [] [_] (.build 7))) (.turn [_] [] (@Turn.reserve Nat 2 ['k'] _ _ _ _ rfl))
  exact ⟨hr, (sessions_conserved hr).1 ['k']⟩

end SessionGateway.Interleaving
