/-
  JSON values — the structured values that bodies carry and operations exchange.

  An object is the list of its members in order.  `Json.Members` holds the two ways of
  changing one: `insert` keeps the place of a name that is there already and puts a new
  one last; `swapRemove` fills the place of the removed member with the last one.
-/
import SessionGateway.Number.Binary64

namespace SessionGateway

/-- A JSON number: whole numbers stay whole, all others are binary64. -/
inductive Json.Number where
  | whole (value : Int)
  | float (value : Binary64)
  deriving DecidableEq, Repr

/-- A JSON value. -/
inductive Json where
  | null
  | bool (value : Bool)
  | number (value : Json.Number)
  | string (value : Text)
  | array (items : List Json)
  | object (members : List (Text × Json))
  deriving Repr, BEq, Inhabited

namespace Json

/-! ## Members of an object -/

/-- The members of an object, in order, each name once. -/
abbrev Members := List (Text × Json)

namespace Members

/-- The value under a name. -/
def get? (name : Text) (ms : Members) : Option Json := ms.lookup name

/-- Whether a name is there. -/
def has (name : Text) (ms : Members) : Bool := ms.any (·.1 == name)

/-- Gives a name a value: in its place if it is there, behind all others if not. -/
def insert (name : Text) (value : Json) : Members → Members
  | [] => [(name, value)]
  | (n, v) :: ms => if n = name then (n, value) :: ms else (n, v) :: insert name value ms

/-- Removes a name; the last member moves to its place. -/
def swapRemove (name : Text) (ms : Members) : Members :=
  match ms.span (·.1 != name) with
  | (before, _ :: after) =>
    match after.getLast? with
    | some last => before ++ last :: after.dropLast
    | none => before
  | (before, []) => before

/-- The names, in order. -/
def names (ms : Members) : List Text := ms.map (·.1)

theorem get?_insert_self (name : Text) (value : Json) (ms : Members) :
    (insert name value ms).get? name = some value := by
  induction ms with
  | nil => simp [insert, get?]
  | cons m ms ih =>
    obtain ⟨n, v⟩ := m
    by_cases h : n = name
    · simp [insert, get?, h]
    · have h' : (name == n) = false := by simpa using Ne.symm h
      simpa [insert, get?, h, List.lookup_cons, h'] using ih

theorem get?_insert_of_ne {name other : Text} (h : other ≠ name) (value : Json) (ms : Members) :
    (insert name value ms).get? other = ms.get? other := by
  have hother : (other == name) = false := by simpa using h
  induction ms with
  | nil => simp [insert, get?, List.lookup_cons, hother]
  | cons m ms ih =>
    obtain ⟨n, v⟩ := m
    by_cases hn : n = name
    · simp [insert, get?, hn, List.lookup_cons, hother]
    · cases hk : other == n with
      | true => simp [insert, get?, hn, List.lookup_cons, hk]
      | false => simpa [insert, get?, hn, List.lookup_cons, hk] using ih

/-- Members without the name stay in front. -/
theorem insert_append {name : Text} {ms : Members} (h : name ∉ ms.names) (value : Json)
    (rest : Members) : insert name value (ms ++ rest) = ms ++ insert name value rest := by
  induction ms with
  | nil => rfl
  | cons m ms ih =>
    rw [names, List.map_cons, List.mem_cons, not_or] at h
    simp only [List.cons_append, insert, if_neg (Ne.symm h.1), ih h.2]

/-- A new name stands last. -/
theorem insert_of_notMem {name : Text} {ms : Members} (h : name ∉ ms.names) (value : Json) :
    insert name value ms = ms ++ [(name, value)] := by
  have hlast := insert_append h value []
  rwa [List.append_nil] at hlast

theorem names_insert (name : Text) (value : Json) (ms : Members) :
    (insert name value ms).names = if name ∈ ms.names then ms.names else ms.names ++ [name] := by
  induction ms with
  | nil => simp [insert, names]
  | cons m ms ih =>
    obtain ⟨n, v⟩ := m
    by_cases h : n = name
    · simp [insert, names, h]
    · simp only [names] at ih
      simp only [insert, h, if_false, names, List.map_cons, ih, List.mem_cons, Ne.symm h, false_or]
      by_cases hm : name ∈ ms.map (·.1) <;> simp [hm]

end Members

/-! ## Small views -/

/-- Whether the number is zero, of either sign. -/
def Number.isZero : Number → Bool
  | .whole i => i == 0
  | .float x => x.isZero

/-- The whole number that a number is, if it is one: `404.0` is 404. -/
def Number.whole? : Number → Option Int
  | .whole i => some i
  | .float x => x.whole?

/-- A whole number. -/
def ofNat (n : Nat) : Json := .number (.whole n)

end Json

end SessionGateway
