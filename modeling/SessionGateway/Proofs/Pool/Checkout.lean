/-
  Checkouts — what a pool does when a session is taken out and brought back.

  A session is built for a key from the registered solution, keeps it while it is out, and
  comes back under the same key; so every session runs the solution that its key asks for.

  * `checkOut_cases`: the four ways in which a request for a session ends;
  * `Faithful.checkOut`: a session that is taken runs the solution of its key;
  * `Faithful.checkIn`: bringing back such a session keeps the pool faithful.
-/
import SessionGateway.Pool.SessionPool
import SessionGateway.Proofs.Pool.Slots

namespace SessionGateway

variable {σ : Type}

/-! ## Building -/

namespace Workshop

theorem registry_build (w : Workshop σ) (key : Text) : (w.build key).2.registry = w.registry := by
  unfold build
  split
  · rfl
  · split <;> rfl

theorem solution_of_build {w : Workshop σ} {key : Text} {session : Session σ}
    (h : (w.build key).1 = .ok session) : w.registry.get? key = some session.solution := by
  unfold build at h
  split at h
  · cases h
  · split at h
    · next solution hs =>
      cases h
      exact hs
    · cases h

end Workshop

/-! ## Pools -/

/-- A session that is out runs the solution that its key asks for. -/
def Guard.Faithful (registry : Registry σ) (guard : Guard σ) : Prop :=
  registry.get? guard.key = some guard.session.solution

namespace SessionPool

/-- A session is reused, or refused at the limit, or built, or cannot be built. -/
theorem checkOut_cases (p : SessionPool σ) (key : Text) :
    (∃ session slots, p.slots.take p.limit key = (.reused session, slots) ∧
      p.checkOut key = (.ok ⟨key, session, false⟩, [.acquire key none], { p with slots })) ∨
    (∃ slots, p.slots.take p.limit key = (.exhausted, slots) ∧
      p.checkOut key =
        (.error .exhausted, [.acquire key (some .exhausted)], { p with slots })) ∨
    (∃ session slots workshop, p.slots.take p.limit key = (.reserved, slots) ∧
      p.workshop.build key = (.ok session, workshop) ∧
      p.checkOut key = (.ok ⟨key, session, false⟩, [.build key, .acquire key none],
        { p with slots, workshop })) ∨
    ∃ e slots workshop, p.slots.take p.limit key = (.reserved, slots) ∧
      p.workshop.build key = (.error e, workshop) ∧
      p.checkOut key = (.error e, [.build key, .acquire key (some e)],
        { p with slots := (slots.cancel key).forget key, workshop }) := by
  unfold checkOut acquire
  rcases p.slots.take p.limit key with ⟨session | _ | _, slots⟩
  · exact .inl ⟨session, slots, rfl, rfl⟩
  · rcases p.workshop.build key with ⟨e | session, workshop⟩
    · exact .inr (.inr (.inr ⟨e, slots, workshop, rfl, rfl, rfl⟩))
    · exact .inr (.inr (.inl ⟨session, slots, workshop, rfl, rfl, rfl⟩))
  · exact .inr (.inl ⟨slots, rfl, rfl⟩)

theorem limit_checkOut (p : SessionPool σ) (key : Text) :
    (p.checkOut key).2.2.limit = p.limit := by
  rcases p.checkOut_cases key with ⟨_, _, -, hc⟩ | ⟨_, -, hc⟩ | ⟨_, _, _, -, -, hc⟩ |
    ⟨_, _, _, -, -, hc⟩ <;> rw [hc]

/-- Every session of a pool runs the solution that its key asks for. -/
structure Faithful (registry : Registry σ) (p : SessionPool σ) : Prop where
  workshop : p.workshop.registry = registry
  idle : p.slots.AllIdle fun key session => registry.get? key = some session.solution

namespace Faithful
variable {registry : Registry σ} {p : SessionPool σ}

theorem new (limit : Nat) (failures : List PlannedFailure) :
    (SessionPool.new limit ⟨registry, failures⟩).Faithful registry :=
  ⟨rfl, fun _ _ hx => by simp [SessionPool.new, Slot.empty] at hx⟩

/-- **A session that is taken runs the solution of its key.** -/
theorem checkOut (h : p.Faithful registry) (key : Text) :
    (p.checkOut key).2.2.Faithful registry ∧
      ∀ guard, (p.checkOut key).1 = .ok guard → guard.key = key ∧ guard.Faithful registry := by
  have hi := h.idle.take p.limit key
  have hw := p.workshop.registry_build key
  rcases p.checkOut_cases key with ⟨session, slots, ht, hc⟩ | ⟨slots, ht, hc⟩ |
    ⟨session, slots, workshop, ht, hb, hc⟩ | ⟨e, slots, workshop, ht, hb, hc⟩ <;> rw [hc]
  · rw [ht] at hi
    refine ⟨⟨h.workshop, hi.1⟩, ?_⟩
    rintro guard ⟨⟩
    exact ⟨rfl, hi.2 session rfl⟩
  · rw [ht] at hi
    exact ⟨⟨h.workshop, hi.1⟩, nofun⟩
  · rw [ht] at hi
    rw [hb] at hw
    refine ⟨⟨hw.trans h.workshop, hi.1⟩, ?_⟩
    rintro guard ⟨⟩
    have hs : p.workshop.registry.get? key = some session.solution :=
      Workshop.solution_of_build (by rw [hb])
    exact ⟨rfl, by rwa [h.workshop] at hs⟩
  · rw [ht] at hi
    rw [hb] at hw
    exact ⟨⟨hw.trans h.workshop, hi.1.cancel.forget⟩, nofun⟩

theorem checkIn (h : p.Faithful registry) {guard : Guard σ} (hg : guard.Faithful registry) :
    (p.checkIn guard).2.Faithful registry :=
  ⟨h.workshop, h.idle.release hg guard.reload⟩

end Faithful

end SessionPool

end SessionGateway
