/-
  Properties — what a session remembers of its client: texts under names.

  The entries are kept in the order of their names, each name once, so that two property
  maps with the same entries are equal.  `Properties.insert` is the only way to add one.
-/
import SessionGateway.Text.Basic

namespace SessionGateway

/-- Texts under names, in the order of the names. -/
structure Properties where
  entries : List (Text × Text)
  sorted : entries.Pairwise fun a b => a.1 < b.1
  deriving Repr

namespace Properties

@[ext] theorem ext {p q : Properties} (h : p.entries = q.entries) : p = q := by
  cases p; cases q; cases h; rfl

instance : DecidableEq Properties := fun p q =>
  if h : p.entries = q.entries then .isTrue (ext h) else .isFalse fun e => h (e ▸ rfl)

/-- No properties. -/
def empty : Properties := ⟨[], .nil⟩

instance : Inhabited Properties := ⟨empty⟩

def isEmpty (p : Properties) : Bool := p.entries.isEmpty

/-- The text under a name. -/
def get? (p : Properties) (name : Text) : Option Text := p.entries.lookup name

/-! ## Changing entries -/

/-- Puts a text under a name at its place in a sorted list. -/
def insertEntry (name t : Text) : List (Text × Text) → List (Text × Text)
  | [] => [(name, t)]
  | e :: es =>
    if name = e.1 then (name, t) :: es
    else if name < e.1 then (name, t) :: e :: es
    else e :: insertEntry name t es

theorem fst_mem_insertEntry {name t : Text} {es : List (Text × Text)} {e : Text × Text}
    (h : e ∈ insertEntry name t es) : e = (name, t) ∨ e ∈ es := by
  induction es with
  | nil => simpa [insertEntry] using h
  | cons x es ih =>
    rw [insertEntry] at h
    split at h
    · simp only [List.mem_cons] at h ⊢
      exact h.imp id Or.inr
    · split at h
      · simpa using h
      · rcases List.mem_cons.1 h with rfl | h
        · simp
        · exact (ih h).imp id (List.mem_cons_of_mem _)

theorem lt_of_not_lt_of_ne {s t : Text} (h : ¬ s < t) (hne : s ≠ t) : t < s :=
  Decidable.byContradiction fun h' =>
    hne (List.le_antisymm (List.not_lt.1 h') (List.not_lt.1 h))

theorem sorted_insertEntry {name t : Text} {es : List (Text × Text)}
    (h : es.Pairwise fun a b => a.1 < b.1) :
    (insertEntry name t es).Pairwise fun a b => a.1 < b.1 := by
  induction es with
  | nil => simp [insertEntry]
  | cons x es ih =>
    rw [List.pairwise_cons] at h
    rw [insertEntry]
    split
    · next heq =>
      rw [List.pairwise_cons]
      exact ⟨fun e he => by simpa [heq] using h.1 e he, h.2⟩
    · split
      · next hlt =>
        refine List.pairwise_cons.2 ⟨fun e he => ?_, List.pairwise_cons.2 h⟩
        rcases List.mem_cons.1 he with rfl | he
        · exact hlt
        · exact List.lt_trans hlt (h.1 e he)
      · next hne hnlt =>
        refine List.pairwise_cons.2 ⟨fun e he => ?_, ih h.2⟩
        rcases fst_mem_insertEntry he with rfl | he
        · exact lt_of_not_lt_of_ne hnlt hne
        · exact h.1 e he

/-- The properties with a text under a name, in place of the one that was there. -/
def insert (p : Properties) (name t : Text) : Properties :=
  ⟨insertEntry name t p.entries, sorted_insertEntry p.sorted⟩

/-- The properties without a name. -/
def erase (p : Properties) (name : Text) : Properties :=
  ⟨p.entries.filter (·.1 != name), p.sorted.filter _⟩

/-- The properties with the given entries; of a repeated name the last text counts. -/
def ofList (entries : List (Text × Text)) : Properties :=
  entries.foldl (fun p (name, t) => p.insert name t) empty

end Properties

end SessionGateway
