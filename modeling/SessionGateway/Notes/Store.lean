/-
  The note store — values under numbers that are never used twice.

  A note is stored as the value that shows it: its number, and the body that was written.
  The entries stand in the order of their numbers, and every number is below the next one to
  be given out; both are part of the type, so that a new entry goes behind all others.
-/
import SessionGateway.Json.Value

namespace SessionGateway

/-- The values under their numbers, and the next number. -/
structure NoteStore where
  entries : List (Nat × Json)
  nextId : Nat
  ordered : entries.Pairwise fun a b => a.1 < b.1
  fresh : ∀ e ∈ entries, e.1 < nextId
  deriving Repr

namespace NoteStore

/-- No notes; the first one gets the number one. -/
def empty : NoteStore := ⟨[], 1, .nil, by simp⟩

/-- The value under a number. -/
def get? (s : NoteStore) (id : Nat) : Option Json := s.entries.lookup id

/-- The values in the order of their numbers. -/
def values (s : NoteStore) : List Json := s.entries.map (·.2)

/-! ## Changing notes -/

/-- The value of a note with the given number and body. -/
def noteValue (id : Nat) (body : Json) : Json :=
  .object [("id".toList, Json.ofNat id), ("note".toList, body)]

/-- Adds a note; the result is its number. -/
def create (s : NoteStore) (body : Json) : Nat × NoteStore :=
  (s.nextId, {
    entries := s.entries ++ [(s.nextId, noteValue s.nextId body)]
    nextId := s.nextId + 1
    ordered := by
      rw [List.pairwise_append]
      exact ⟨s.ordered, List.pairwise_singleton .., by simpa using s.fresh⟩
    fresh := by
      intro e he
      rcases List.mem_append.1 he with he | he
      · exact Nat.lt_succ_of_lt (s.fresh e he)
      · rw [List.mem_singleton.1 he]; exact Nat.lt_succ_self _ })

/-- An entry with another value, if it has the given number. -/
def rewrite (id : Nat) (value : Json) (e : Nat × Json) : Nat × Json :=
  if e.1 = id then (e.1, value) else e

@[simp] theorem fst_rewrite (id : Nat) (value : Json) (e : Nat × Json) :
    (rewrite id value e).1 = e.1 := by
  unfold rewrite; split <;> rfl

/-- Replaces the value under a number. -/
def update (s : NoteStore) (id : Nat) (value : Json) : NoteStore where
  entries := s.entries.map (rewrite id value)
  nextId := s.nextId
  ordered := by simpa [List.pairwise_map] using s.ordered
  fresh := by
    intro e he
    obtain ⟨d, hd, rfl⟩ := List.mem_map.1 he
    simpa using s.fresh d hd

/-- Removes what stands under a number. -/
def erase (s : NoteStore) (id : Nat) : NoteStore where
  entries := s.entries.filter (·.1 != id)
  nextId := s.nextId
  ordered := s.ordered.filter _
  fresh := fun e he => s.fresh e (List.mem_filter.1 he).1

end NoteStore

end SessionGateway
