/-
  Shutdown — one signal to everybody who subscribed.

  Signals go over a channel that keeps the last one only: a receiver knows how many
  signals lie behind it, and has lost some if more than one is ahead of it.  A receiver
  starts behind all signals that were sent before it subscribed.

  * `Shutdown.trigger` sends a signal the first time, and nothing later;
  * `Shutdown.tryReceive` asks for the next signal of a receiver, `Shutdown.wait` takes
    the receiver away and resolves if there is one;
  * `Shutdown.sent_le_one`: in `Shutdown.WellFormed` states at most one signal is ever sent.
-/
import SessionGateway.Text.Basic

namespace SessionGateway

/-- A channel for the one signal to stop. -/
structure Shutdown where
  triggered : Bool
  /-- The number of signals that were sent. -/
  sent : Nat
  /-- For each receiver, the number of signals that lie behind it. -/
  receivers : List Nat
  deriving Repr, DecidableEq

/-- What a receiver gets. -/
inductive Reception where
  | signal
  | empty
  /-- Signals were lost; the receiver goes on with the last one. -/
  | lagged
  deriving Repr, DecidableEq

namespace Shutdown

/-- A channel without receivers and signals. -/
def new : Shutdown := ⟨false, 0, []⟩

/-- Adds a receiver; the result is its place. -/
def subscribe (s : Shutdown) : Nat × Shutdown :=
  (s.receivers.length, { s with receivers := s.receivers ++ [s.sent] })

/-- Sends the signal, unless it was sent before. -/
def trigger (s : Shutdown) : Shutdown :=
  if s.triggered then s else { s with triggered := true, sent := s.sent + 1 }

/-- What a receiver with `behind` signals behind it gets, and how many are behind it then. -/
def receive (sent behind : Nat) : Reception × Nat :=
  if sent ≤ behind then (.empty, behind)
  else if sent = behind + 1 then (.signal, sent)
  else (.lagged, sent - 1)

/-- Asks for the next signal of the receiver at a place; none if there is no receiver. -/
def tryReceive (s : Shutdown) (place : Nat) : Option (Reception × Shutdown) :=
  s.receivers[place]?.map fun behind =>
    let (reception, behind) := receive s.sent behind
    (reception, { s with receivers := s.receivers.set place behind })

/-- Takes the receiver at a place away and waits for its next signal; the result says whether
    there is one. None if there is no receiver. -/
def wait (s : Shutdown) (place : Nat) : Option (Bool × Shutdown) :=
  s.receivers[place]?.map fun behind =>
    (decide ((receive s.sent behind).1 ≠ .empty),
      { s with receivers := s.receivers.eraseIdx place })

/-! ## What holds of every channel -/

/-- A signal was sent if and only if the channel was triggered, and nobody is ahead of it. -/
structure WellFormed (s : Shutdown) : Prop where
  sent_eq : s.sent = if s.triggered then 1 else 0
  behind_le : ∀ behind ∈ s.receivers, behind ≤ s.sent

theorem sent_le_one {s : Shutdown} (h : s.WellFormed) : s.sent ≤ 1 := by
  rw [h.sent_eq]; split <;> decide

theorem wellFormed_new : new.WellFormed := ⟨rfl, by simp [new]⟩

theorem wellFormed_subscribe {s : Shutdown} (h : s.WellFormed) : s.subscribe.2.WellFormed := by
  refine ⟨h.sent_eq, fun behind hb => ?_⟩
  simp only [subscribe, List.mem_append, List.mem_singleton] at hb ⊢
  rcases hb with hb | rfl
  · exact h.behind_le behind hb
  · exact Nat.le_refl _

theorem wellFormed_trigger {s : Shutdown} (h : s.WellFormed) : s.trigger.WellFormed := by
  unfold trigger
  split
  · exact h
  · next ht =>
    have hs := h.sent_eq
    simp only [Bool.not_eq_true] at ht
    simp only [ht, Bool.false_eq_true, if_false] at hs
    exact ⟨by simp [hs], fun behind hb => Nat.le_succ_of_le (h.behind_le behind hb)⟩

end Shutdown

end SessionGateway
