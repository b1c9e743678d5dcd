/-
  The session pool — sessions taken out and brought back under keys.

  A pool keeps idle sessions for reuse, has at most `limit` sessions of one key out, and
  builds a session where none is idle.  The `Workshop` builds sessions of the registered
  solutions; for planned failures it refuses a key a number of times.

  A `Guard` is a session that is out, with the wish to have it reloaded.
-/
import SessionGateway.Pool.Slots
import SessionGateway.Session.Event
import SessionGateway.Session.Solution
import SessionGateway.Text.Quoted

namespace SessionGateway

/-! ## Building sessions -/

/-- A key for which no session can be built a number of times. -/
structure PlannedFailure where
  key : Text
  message : Text
  times : Nat
  deriving Repr

/-- What builds sessions. -/
structure Workshop (σ : Type) where
  registry : Registry σ
  failures : List PlannedFailure

namespace Workshop
variable {σ : Type}

/-- The message of the first planned failure of a key that has times left, and the failures with
    one time less. -/
def fail? (key : Text) : List PlannedFailure → Option (Text × List PlannedFailure)
  | [] => none
  | f :: fs =>
    if f.key = key ∧ 0 < f.times then some (f.message, { f with times := f.times - 1 } :: fs)
    else (fail? key fs).map fun (message, fs) => (message, f :: fs)

/-- Builds a session for a key. -/
def build (w : Workshop σ) (key : Text) : Except PoolError (Session σ) × Workshop σ :=
  match fail? key w.failures with
  | some (message, failures) => (.error (.creation message), { w with failures })
  | none =>
    match w.registry.get? key with
    | some solution => (.ok (.new solution), w)
    | none => (.error (.unknownSolution key), w)

end Workshop

/-! ## Pools -/

/-- A pool of sessions. -/
structure SessionPool (σ : Type) where
  /-- The greatest number of sessions of one key that may be out. -/
  limit : Nat
  slots : Slots (Session σ)
  workshop : Workshop σ

/-- A session that is out. -/
structure Guard (σ : Type) where
  key : Text
  session : Session σ
  /-- Whether the session is to be dropped when it comes back. -/
  reload : Bool

/-- How a guard is shown. -/
def Guard.describe {σ : Type} (g : Guard σ) : Text :=
  "PooledSession \x7b key: ".toList ++ Text.quoted g.key ++ ", reload: ".toList ++
    (if g.reload then "true" else "false").toList ++ " \x7d".toList

namespace SessionPool
variable {σ : Type}

/-- A pool without sessions. -/
def new (limit : Nat) (workshop : Workshop σ) : SessionPool σ := ⟨limit, .empty, workshop⟩

/-- Takes out a session of a key: an idle one, or a new one if fewer than `limit` are out. -/
def acquire (p : SessionPool σ) (key : Text) :
    Except PoolError (Session σ) × Trace × SessionPool σ :=
  match p.slots.take p.limit key with
  | (.reused session, slots) => (.ok session, [.acquire key none], { p with slots })
  | (.exhausted, slots) =>
    (.error .exhausted, [.acquire key (some .exhausted)], { p with slots })
  | (.reserved, slots) =>
    match p.workshop.build key with
    | (.ok session, workshop) =>
      (.ok session, [.build key, .acquire key none], { p with slots, workshop })
    | (.error e, workshop) =>
      (.error e, [.build key, .acquire key (some e)],
        { p with slots := (slots.cancel key).forget key, workshop })

/-- Brings back a session under a key. -/
def release (p : SessionPool σ) (key : Text) (session : Session σ) (reload : Bool) :
    Trace × SessionPool σ :=
  ([.release key reload], { p with slots := p.slots.release key session reload })

/-- Takes out a session under a guard. -/
def checkOut (p : SessionPool σ) (key : Text) :
    Except PoolError (Guard σ) × Trace × SessionPool σ :=
  match p.acquire key with
  | (.ok session, trace, p) => (.ok ⟨key, session, false⟩, trace, p)
  | (.error e, trace, p) => (.error e, trace, p)

/-- Brings back the session of a guard. -/
def checkIn (p : SessionPool σ) (g : Guard σ) : Trace × SessionPool σ :=
  p.release g.key g.session g.reload

end SessionPool

end SessionGateway
