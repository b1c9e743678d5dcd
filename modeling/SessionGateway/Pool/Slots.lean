/-
  Slots — the idle sessions and the checkouts of every key.

  Each definition is one atomic step.  Taking a session is two of them: `Slots.take` hands
  out an idle session or reserves a checkout, and a reservation for which no session can
  be built is given back by `Slots.cancel` and then `Slots.forget`.

  The elements are sessions of any type; a slot hands out the one that came in last.
-/
import SessionGateway.Text.Basic

namespace SessionGateway

/-- What is known of one key. -/
structure Slot (α : Type) where
  /-- The idle sessions, the last one in first. -/
  idle : List α
  /-- The number of sessions that are out or being built. -/
  checkedOut : Nat
  deriving Repr

namespace Slot
variable {α : Type}

/-- The slot of a key that was never used. -/
def empty : Slot α := ⟨[], 0⟩

/-- Whether nothing would be lost with the slot. -/
def isUnused (s : Slot α) : Bool := s.checkedOut == 0 && s.idle.isEmpty

end Slot

/-- The slots of a pool, each key once. -/
structure Slots (α : Type) where
  entries : List (Text × Slot α)
  deriving Repr

/-- What a key gets. -/
inductive Taken (α : Type) where
  /-- An idle session. -/
  | reused (session : α)
  /-- The right to build a session. -/
  | reserved
  | exhausted
  deriving Repr

namespace Slots
variable {α : Type}

/-- No slots. -/
def empty : Slots α := ⟨[]⟩

/-- The slot of a key, if it has one. -/
def get? (s : Slots α) (key : Text) : Option (Slot α) := s.entries.lookup key

/-- The slot of a key; one that it does not have is empty. -/
def get (s : Slots α) (key : Text) : Slot α := (s.get? key).getD .empty

/-- The number of slots. -/
def size (s : Slots α) : Nat := s.entries.length

/-- Gives a key a slot in place of the one it has. -/
def putEntry (key : Text) (slot : Slot α) : List (Text × Slot α) → List (Text × Slot α)
  | [] => [(key, slot)]
  | e :: es => if e.1 = key then (key, slot) :: es else e :: putEntry key slot es

/-- Gives a key a slot in place of the one it has. -/
def put (s : Slots α) (key : Text) (slot : Slot α) : Slots α := ⟨putEntry key slot s.entries⟩

/-! ## Steps -/

/-- Hands out an idle session, or reserves a checkout if there are fewer than `limit`. -/
def take (limit : Nat) (s : Slots α) (key : Text) : Taken α × Slots α :=
  let slot := s.get key
  match slot.idle with
  | session :: idle => (.reused session, s.put key ⟨idle, slot.checkedOut + 1⟩)
  | [] =>
    if limit ≤ slot.checkedOut then (.exhausted, s.put key slot)
    else (.reserved, s.put key ⟨[], slot.checkedOut + 1⟩)

/-- Gives back a reservation. -/
def cancel (s : Slots α) (key : Text) : Slots α :=
  let slot := s.get key
  s.put key ⟨slot.idle, slot.checkedOut - 1⟩

/-- Removes the slot of a key if it is unused. -/
def forget (s : Slots α) (key : Text) : Slots α :=
  if (s.get key).isUnused then ⟨s.entries.filter (·.1 != key)⟩ else s

/-- Takes a session back, to keep it idle or to drop it. -/
def release (s : Slots α) (key : Text) (session : α) (reload : Bool) : Slots α :=
  let slot := s.get key
  s.put key ⟨if reload then slot.idle else session :: slot.idle, slot.checkedOut - 1⟩

theorem get?_put (s : Slots α) (key other : Text) (slot : Slot α) :
    (s.put key slot).get? other = if other = key then some slot else s.get? other := by
  obtain ⟨es⟩ := s
  simp only [put, get?]
  induction es with
  | nil =>
    by_cases h : other = key
    · simp [putEntry, h]
    · have h' : (other == key) = false := by simpa using h
      simp [putEntry, h, List.lookup_cons, h']
  | cons e es ih =>
    obtain ⟨k, v⟩ := e
    by_cases hk : k = key
    · subst hk
      by_cases h : other = k
      · simp [putEntry, h]
      · have h' : (other == k) = false := by simpa using h
        simp [putEntry, h, List.lookup_cons, h']
    · by_cases h : other = k
      · subst h
        simp [putEntry, hk]
      · have h' : (other == k) = false := by simpa using h
        simp only [putEntry, hk, if_false, List.lookup_cons, h', ih]

theorem get_put (s : Slots α) (key other : Text) (slot : Slot α) :
    (s.put key slot).get other = if other = key then slot else s.get other := by
  simp only [get, get?_put]
  split <;> rfl

end Slots

end SessionGateway
