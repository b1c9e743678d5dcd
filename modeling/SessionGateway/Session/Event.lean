/-
  Events — what a gateway asks of its pool and sessions, in order.

  A trace is written while a request runs; nothing that the gateway does depends on it.
-/
import SessionGateway.Payload.Basic
import SessionGateway.Session.Operation
import SessionGateway.Session.Properties

namespace SessionGateway

/-- One thing that was asked of the pool or of a session. -/
inductive Event where
  /-- A session was built for a key, or was meant to be. -/
  | build (key : Text)
  /-- A session was taken, or refused with an error. -/
  | acquire (key : Text) (error : Option PoolError)
  | setProperties (p : Properties)
  /-- An operation was run on a scope; `before` are the properties that it found. -/
  | invoke (scope : Text) (o : Operation) (args : List Payload) (before : Properties)
  | reportError (context message : Text)
  | release (key : Text) (reload : Bool)
  deriving Repr

/-- The session that an event acquires. -/
def Event.acquired? : Event → Option Text
  | .acquire key none => some key
  | _ => none

theorem Event.acquired?_eq_some_iff {e : Event} {key : Text} :
    e.acquired? = some key ↔ e = .acquire key none := by
  constructor
  · intro h
    unfold acquired? at h
    split at h
    · cases h
      rfl
    · cases h
  · rintro rfl
    rfl

/-- Events in order. -/
abbrev Trace := List Event

instance (t : Trace) : Decidable (∃ key, Event.acquire key none ∈ t) :=
  decidable_of_iff (∃ e ∈ t, e.acquired?.isSome = true) <| by
    simp only [Option.isSome_iff_exists, Event.acquired?_eq_some_iff]
    constructor
    · rintro ⟨_, hm, key, rfl⟩
      exact ⟨key, hm⟩
    · rintro ⟨key, hm⟩
      exact ⟨_, hm, key, rfl⟩

end SessionGateway
