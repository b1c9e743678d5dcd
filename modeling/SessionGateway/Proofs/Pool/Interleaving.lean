/-
  Interleaving — any number of threads that share a pool.

  A checkout is several atomic steps: an idle session is taken or a checkout is reserved; a
  reservation ends in a session that was built, or is given back, after which the slot is
  forgotten if it is unused.  Between two steps of one thread, any other thread may run.

  * `Act` are the steps, and `Turn` is what each of them does to the pool and to the thread
    that takes it; the outcome of a build is free, and so is the session that is built;
  * `Step` lets any one thread take a step, and `Reachable` are the states of a pool and its
    threads after any number of steps, in any order.

  Sessions carry the number under which they were built, so that two of them can be told
  apart.  The sessions that are out are held by leases: a lease knows the key that its
  session goes back to, and nothing but a lease brings one back.
-/
import SessionGateway.Proofs.Pool.Slots

namespace SessionGateway.Interleaving

variable {α : Type}

/-- A session with its number in the order of building. -/
structure Built (α : Type) where
  number : Nat
  session : α

/-- A session that is out, with the key that it goes back to. -/
structure Lease (α : Type) where
  key : Text
  held : Built α
  /-- Whether the session is to be dropped when it comes back. -/
  reload : Bool

/-- Where a thread stands in a checkout. -/
inductive Task where
  | resting
  /-- It has reserved a checkout, and a session is being built. -/
  | building (key : Text)
  /-- It has given the reservation back, and is to forget the slot if it is unused. -/
  | forgetting (key : Text)

/-- The key of a reservation whose build has not finished. -/
def Task.pending : Task → List Text
  | building key => [key]
  | _ => []

structure Thread (α : Type) where
  task : Task
  leases : List (Lease α)

/-- A pool and the threads that share it. -/
structure System (α : Type) where
  slots : Slots (Built α)
  /-- The keys of the sessions that were built so far, in order. -/
  builds : List Text
  threads : List (Thread α)

/-! ## Steps -/

/-- An atomic step of a thread. -/
inductive Act (α : Type) where
  /-- Takes an idle session, reserves a checkout, or is refused. -/
  | take (key : Text)
  /-- The build of a reservation succeeds. -/
  | build (key : Text) (session : α)
  /-- The build of a reservation has failed, and the reservation is given back. -/
  | cancel (key : Text)
  | forget (key : Text)
  /-- Changes a session that is out, and what becomes of it when it comes back. -/
  | use (key : Text) (session : α) (reload : Bool)
  /-- Brings back a session. -/
  | release (key : Text) (reload : Bool)

/-- The key whose checkouts a step makes one less. -/
def Act.decrements? : Act α → Option Text
  | cancel key | release key _ => some key
  | _ => none

/-- What a step does to the slots, to the builds and to the thread that takes it. -/
inductive Turn (limit : Nat) : Act α →
    Slots (Built α) → List Text → Thread α → Slots (Built α) → List Text → Thread α → Prop where
  | reuse {key x slots slots' builds leases} :
      slots.take limit key = (.reused x, slots') →
      Turn limit (.take key) slots builds ⟨.resting, leases⟩
        slots' builds ⟨.resting, ⟨key, x, false⟩ :: leases⟩
  | reserve {key slots slots' builds leases} :
      slots.take limit key = (.reserved, slots') →
      Turn limit (.take key) slots builds ⟨.resting, leases⟩ slots' builds ⟨.building key, leases⟩
  | refuse {key slots slots' builds leases} :
      slots.take limit key = (.exhausted, slots') →
      Turn limit (.take key) slots builds ⟨.resting, leases⟩ slots' builds ⟨.resting, leases⟩
  | build {key slots builds leases} (session : α) :
      Turn limit (.build key session) slots builds ⟨.building key, leases⟩
        slots (builds ++ [key]) ⟨.resting, ⟨key, ⟨builds.length, session⟩, false⟩ :: leases⟩
  | cancel {key slots builds leases} :
      Turn limit (.cancel key) slots builds ⟨.building key, leases⟩
        (slots.cancel key) builds ⟨.forgetting key, leases⟩
  | forget {key slots builds leases} :
      Turn limit (.forget key) slots builds ⟨.forgetting key, leases⟩
        (slots.forget key) builds ⟨.resting, leases⟩
  | use {key x slots builds task before after} {reload : Bool} (session : α) (reload' : Bool) :
      (reload → reload') →
      Turn limit (.use key session reload') slots builds
        ⟨task, before ++ ⟨key, x, reload⟩ :: after⟩
        slots builds ⟨task, before ++ ⟨key, ⟨x.number, session⟩, reload'⟩ :: after⟩
  | release {key x slots builds task before after} {reload : Bool} (reload' : Bool) :
      (reload → reload') →
      Turn limit (.release key reload') slots builds ⟨task, before ++ ⟨key, x, reload⟩ :: after⟩
        (slots.release key x reload') builds ⟨task, before ++ after⟩

/-- One thread takes a step. -/
inductive Step (limit : Nat) (a : Act α) : System α → System α → Prop where
  | turn {slots slots' builds builds' t t'} (before after : List (Thread α)) :
      Turn limit a slots builds t slots' builds' t' →
      Step limit a ⟨slots, builds, before ++ t :: after⟩ ⟨slots', builds', before ++ t' :: after⟩

/-- The states of an empty pool and `n` threads after any steps in any order. -/
inductive Reachable (limit n : Nat) : System α → Prop where
  | start : Reachable limit n ⟨.empty, [], List.replicate n ⟨.resting, []⟩⟩
  | step {a : Act α} {s s' : System α} :
      Reachable limit n s → Step limit a s s' → Reachable limit n s'

/-! ## Views -/

namespace System

/-- The leases of all threads. -/
def leases (s : System α) : List (Lease α) := s.threads.flatMap (·.leases)

/-- The keys of the reservations whose build has not finished. -/
def pending (s : System α) : List Text := s.threads.flatMap (·.task.pending)

/-- The sessions that there are: the idle ones and those that are out. -/
def sessions (s : System α) : List (Built α) := s.slots.sessions ++ s.leases.map (·.held)

end System

/-- What one of several threads has, and what the others have. -/
theorem flatMap_thread_perm {β : Type} (f : Thread α → List β) (before after : List (Thread α))
    (t : Thread α) :
    ((before ++ t :: after).flatMap f).Perm (f t ++ (before ++ after).flatMap f) := by
  simp only [List.flatMap_append, List.flatMap_cons, ← List.append_assoc]
  exact List.perm_append_comm.append_right _

end SessionGateway.Interleaving
