/-
  Histories of notes — what the note store answers after any actions on it.

  An action (`NoteStore.Action`) runs an operation through some session of the notes solution.  What
  stands under a number is said by the history alone: the body that was last written there, unless
  the note was deleted since (`NoteStore.bodyAfter`), in an object that has the number beside it
  (`NoteStore.shownAfter`).

  * `get?_create`, `get?_update`, `get?_erase`: what a change does under each number;
  * `values_eq`: what is listed is what stands under the numbers, in their order;
  * `idOf?_eq_some_iff`: the arguments that name a number;
  * `Shows.step`, `shows_storeAfter`: one action, and any number of them, keep a store that shows
    its history, each value with the number that it stands under;
  * `history_answered`: so every action answers what the history says.
-/
import Mathlib.Algebra.Group.Nat.Defs
import Mathlib.Data.List.Sort
import SessionGateway.Notes.Solution
import SessionGateway.Proofs.Session.Entries
import SessionGateway.Proofs.Text.Numerals

namespace SessionGateway.NoteStore

variable {s : NoteStore} {id : Nat}

/-! ## Values under numbers -/

theorem ext {s t : NoteStore} (hentries : s.entries = t.entries) (hnext : s.nextId = t.nextId) :
    s = t := by
  cases s; cases t; cases hentries; cases hnext; rfl

/-- No two values have one number. -/
theorem get?_eq_some_iff {v : Json} : s.get? id = some v ↔ (id, v) ∈ s.entries :=
  lookup_eq_some_iff_mem (s.ordered.imp Nat.ne_of_lt)

theorem get?_eq_none_iff : s.get? id = none ↔ ∀ e ∈ s.entries, e.1 ≠ id := by
  simp only [Option.eq_none_iff_forall_ne_some, ne_eq, get?_eq_some_iff]
  exact ⟨fun h e he heq => h e.2 (heq ▸ he), fun h v hv => h (id, v) hv rfl⟩

theorem get?_create (s : NoteStore) (body : Json) (id : Nat) :
    (s.create body).2.get? id =
      if id = s.nextId then some (noteValue s.nextId body) else s.get? id := by
  ext v
  rw [get?_eq_some_iff, create, List.mem_append, List.mem_singleton, Prod.mk.injEq]
  split
  · next h =>
    subst h
    have hnew : (s.nextId, v) ∉ s.entries := fun hv => Nat.lt_irrefl _ (s.fresh _ hv)
    rw [or_iff_right hnew, and_iff_right rfl, Option.some.injEq, eq_comm]
  · next h => rw [or_iff_left fun hv => h hv.1, get?_eq_some_iff]

theorem rewrite_eq_iff {value v : Json} {other : Nat} {e : Nat × Json} :
    rewrite id value e = (other, v) ↔ e.1 = other ∧ (if other = id then value else e.2) = v := by
  rw [Prod.ext_iff, fst_rewrite]
  refine and_congr_right fun ho => ?_
  rw [rewrite, ho]
  split <;> rfl

theorem get?_update (s : NoteStore) (id : Nat) (value : Json) (other : Nat) :
    (s.update id value).get? other =
      if other = id then (s.get? other).map fun _ => value else s.get? other := by
  ext v
  rw [get?_eq_some_iff, update, List.mem_map]
  simp only [rewrite_eq_iff]
  by_cases h : other = id
  · simp only [if_pos h, Option.map_eq_some_iff, get?_eq_some_iff]
    constructor
    · rintro ⟨e, he, rfl, hv⟩
      exact ⟨e.2, he, hv⟩
    · rintro ⟨w, hw, hv⟩
      exact ⟨(other, w), hw, rfl, hv⟩
  · simp only [if_neg h, get?_eq_some_iff]
    constructor
    · rintro ⟨e, he, rfl, rfl⟩
      exact he
    · exact fun hv => ⟨(other, v), hv, rfl, rfl⟩

theorem get?_erase (s : NoteStore) (id other : Nat) :
    (s.erase id).get? other = if other = id then none else s.get? other := by
  ext v
  rw [get?_eq_some_iff, erase, List.mem_filter, bne_iff_ne]
  split
  · next h => simp [h]
  · next h => rw [and_iff_left h, get?_eq_some_iff]

theorem erase_of_get?_eq_none (h : s.get? id = none) : s.erase id = s := by
  refine ext (List.filter_eq_self.2 fun e he => ?_) rfl
  exact bne_iff_ne.2 (get?_eq_none_iff.1 h e he)

/-- The entries are what stands under the numbers, from the first to the last given out. -/
theorem entries_eq (hzero : s.get? 0 = none) :
    s.entries = (List.range' 1 (s.nextId - 1)).filterMap fun id => (s.get? id).map (Prod.mk id) := by
  have : Std.Irrefl fun d e : Nat × Json => d.1 < e.1 := ⟨fun e => Nat.lt_irrefl e.1⟩
  have : Std.Antisymm fun d e : Nat × Json => d.1 < e.1 :=
    ⟨fun d e hde hed => absurd hde (Nat.lt_asymm hed)⟩
  -- two lists in strict order are equal if they have the same members
  refine s.ordered.eq_of_mem_iff ?_ fun e => ?_
  · refine List.Pairwise.filterMap _ (fun i j hij d hd e he => ?_) List.pairwise_lt_range'
    obtain ⟨_, -, rfl⟩ := Option.map_eq_some_iff.1 hd
    obtain ⟨_, -, rfl⟩ := Option.map_eq_some_iff.1 he
    exact hij
  · rw [List.mem_filterMap]
    constructor
    · intro he
      have hpos : e.1 ≠ 0 := get?_eq_none_iff.1 hzero e he
      have hlt := s.fresh e he
      refine ⟨e.1, List.mem_range'_1.2 (by omega), ?_⟩
      rw [get?_eq_some_iff.2 he, Option.map_some]
    · rintro ⟨id, -, hget⟩
      obtain ⟨v, hv, rfl⟩ := Option.map_eq_some_iff.1 hget
      exact get?_eq_some_iff.1 hv

/-- **The values are listed in the order of their numbers**, each once. -/
theorem values_eq (hzero : s.get? 0 = none) :
    s.values = (List.range' 1 (s.nextId - 1)).filterMap s.get? := by
  rw [values, entries_eq hzero, List.map_filterMap]
  refine congrArg (List.filterMap · _) (funext fun id => ?_)
  rw [Option.map_map]
  exact Option.map_id'

/-! ## Numbers as arguments -/

/-- **The arguments that name a number**: its numeral as a text, behind any zeros, and a plus sign
    before them or none. -/
theorem idOf?_eq_some_iff {arg : Payload} :
    idOf? arg = some id ↔ id < 2 ^ 64 ∧ ∃ zeros,
      arg = .ofText (Numeral.padded zeros id) ∨ arg = .ofText ('+' :: Numeral.padded zeros id) := by
  have hlimit : id ≤ Numeral.max64 ↔ id < 2 ^ 64 := Nat.le_iff_lt_add_one
  unfold idOf?
  split
  · simp only [Numeral.bounded?_eq_some_iff, hlimit, Payload.ofText, Payload.value.injEq,
      Json.string.injEq]
  · next hno =>
    refine iff_of_false nofun ?_
    rintro ⟨-, zeros, rfl | rfl⟩
    · exact hno _ rfl
    · exact hno _ rfl

/-! ## Actions -/

/-- An operation on the notes, run through some session of their solution. -/
structure Action where
  session : Session NoteStore
  operation : Operation
  request : RequestHead
  args : List Payload
  overrides : Overrides
  ofNotes : session.solution = solution

namespace Action

/-- How an action ends, and the store that it leaves behind. -/
def run (a : Action) (s : NoteStore) : Ending × NoteStore :=
  let (ending, _, _, s') := a.session.invoke scope a.operation a.request a.args a.overrides s
  (ending, s')

/-- The body that an action gets: its first argument as a value, where octets are a text in Base64
    and the fields of a form are a list of objects, or null if there is none. -/
def body (a : Action) : Json :=
  match a.args with
  | [] => .null
  | .value v :: _ => v
  | .bytes bs :: _ => .string (Base64.encode bs)
  | .fields fs :: _ => .array (Payload.fieldsJson fs)

theorem bodyOf_args (a : Action) : bodyOf a.args = a.body := by
  rw [bodyOf, body]
  rcases a.args with _ | ⟨v | bs | fs, args⟩ <;> simp [Payload.toJson]

/-- The number that an action names: an update with its second argument, and any other with its
    first. -/
def names? (a : Action) : Option Nat :=
  match a.operation with
  | .update => a.args[1]?.bind idOf?
  | _ => a.args.head?.bind idOf?

theorem behaviour?_solution (o : Operation) :
    solution.behaviour? scope o =
      match o with
      | .read => some (behaviour fun s args => .ok (s.read args, s))
      | .create => some (behaviour fun s args => .ok (s.add args))
      | .update => some (behaviour replace)
      | .delete => some (behaviour remove)
      | .patch | .authenticate | .responseHeaders => none := by
  cases o <;> rfl

/-- **What an action does.** -/
theorem run_eq (a : Action) (s : NoteStore) :
    a.run s =
      match a.operation, a.names? with
      | .read, _ => (.returned (s.read a.args), s)
      | .create, _ =>
        (.returned (.value (.object [("id".toList, .number (.whole s.nextId))])),
          (s.create a.body).2)
      | .update, some id =>
        if (s.get? id).isSome then
          (.returned (.value (noteValue id a.body)), s.update id (noteValue id a.body))
        else (.returned .null, s)
      | .delete, some id => (.returned (.value (.bool (s.get? id).isSome)), s.erase id)
      | .update, none | .delete, none => (.failed idRequired, s)
      | o, _ => (.failed (Session.missing scope o), s) := by
  rw [run, Session.invoke, a.ofNotes, behaviour?_solution, names?]
  cases a.operation with
  | read | patch | authenticate | responseHeaders => rfl
  | create => simp only [behaviour, add, bodyOf_args]; rfl
  | update =>
    simp only [behaviour, replace, bodyOf_args]
    cases a.args[1]?.bind idOf? with
    | none => rfl
    | some id => cases hget : s.get? id <;> simp [hget]
  | delete =>
    simp only [behaviour, remove]
    cases a.args.head?.bind idOf? <;> rfl

theorem nextId_run (a : Action) (s : NoteStore) :
    (a.run s).2.nextId = if a.operation = .create then s.nextId + 1 else s.nextId := by
  rw [run_eq]
  cases a.operation with
  | create => rfl
  | read | patch | authenticate | responseHeaders => rfl
  | update =>
    cases a.names? with
    | none => rfl
    | some id => dsimp only; split <;> rfl
  | delete => cases a.names? <;> rfl

/-- **What stands under each number** after an action. -/
theorem get?_run (a : Action) (s : NoteStore) (id : Nat) :
    (a.run s).2.get? id =
      match a.operation, a.names? with
      | .create, _ => if id = s.nextId then some (noteValue id a.body) else s.get? id
      | .update, some named =>
        if id = named then (s.get? id).map fun _ => noteValue id a.body else s.get? id
      | .delete, some named => if id = named then none else s.get? id
      | _, _ => s.get? id := by
  rw [run_eq]
  cases a.operation with
  | create =>
    refine (get?_create s a.body id).trans (ite_congr rfl (fun hid => ?_) fun _ => rfl)
    rw [hid]
  | read | patch | authenticate | responseHeaders => rfl
  | update =>
    cases a.names? with
    | none => rfl
    | some named =>
      dsimp only
      split
      · refine (get?_update s named _ id).trans (ite_congr rfl (fun hid => ?_) fun _ => rfl)
        rw [hid]
      · next hnone =>
        split
        · next he => rw [he, Option.not_isSome_iff_eq_none.1 hnone]; rfl
        · rfl
  | delete =>
    cases a.names? with
    | none => rfl
    | some named => exact get?_erase s named id

end Action

/-! ## Histories -/

/-- The store after actions on one that was empty; the last action stands in front. -/
def storeAfter : List Action → NoteStore
  | [] => .empty
  | a :: past => (a.run (storeAfter past)).2

/-- How many notes the actions created. -/
def creations (past : List Action) : Nat := past.countP (·.operation = .create)

theorem creations_cons (a : Action) (past : List Action) :
    creations (a :: past) =
      if a.operation = .create then creations past + 1 else creations past := by
  rw [creations, List.countP_cons]
  by_cases hop : a.operation = .create <;> simp [hop, creations]

/-- The body that actions leave under a number: the one that was written there last, by the
    creation with that number or by an update that found a note, unless the note was deleted
    since. -/
def bodyAfter (id : Nat) : List Action → Option Json
  | [] => none
  | a :: past =>
    match a.operation, a.names? with
    | .create, _ => if id = creations past + 1 then some a.body else bodyAfter id past
    | .update, some named =>
      if id = named then (bodyAfter id past).map fun _ => a.body else bodyAfter id past
    | .delete, some named => if id = named then none else bodyAfter id past
    | _, _ => bodyAfter id past

/-- What is shown under a number after actions: the number itself and the body, if there is one. -/
def shownAfter (past : List Action) (id : Nat) : Option Json :=
  (bodyAfter id past).map fun body =>
    .object [("id".toList, .number (.whole id)), ("note".toList, body)]

/-- A store that shows what its history left: the next number follows those given out, and the
    value under a number has this number in it. -/
structure Shows (past : List Action) (s : NoteStore) : Prop where
  nextId : s.nextId = creations past + 1
  get? : s.get? = shownAfter past

variable {past : List Action}

theorem shownAfter_eq_none_iff : shownAfter past id = none ↔ bodyAfter id past = none :=
  Option.map_eq_none_iff

/-- **One action keeps a store that shows its history.** -/
theorem Shows.step (h : Shows past s) (a : Action) : Shows (a :: past) (a.run s).2 where
  nextId := by
    rw [a.nextId_run, h.nextId, creations_cons]
    split <;> rfl
  get? := by
    funext id
    rw [a.get?_run, h.nextId, h.get?, shownAfter, shownAfter, bodyAfter]
    split
    · split <;> rfl
    · split
      · rw [Option.map_map, Option.map_map]; rfl
      · rfl
    · split <;> rfl
    · rfl

/-- **A store shows its history**, whatever the actions were. -/
theorem shows_storeAfter (past : List Action) : Shows past (storeAfter past) := by
  induction past with
  | nil => exact ⟨rfl, rfl⟩
  | cons a past ih => exact ih.step a

/-! ## Answers -/

/-- **What stands under a number was created**: only numbers that were given out are in use. -/
theorem le_creations_of_bodyAfter (h : bodyAfter id past ≠ none) :
    1 ≤ id ∧ id ≤ creations past := by
  induction past with
  | nil => exact absurd rfl h
  | cons a past ih =>
    have hle : creations past ≤ creations (a :: past) := by
      rw [creations_cons]
      split <;> omega
    have hpast : bodyAfter id past ≠ none → 1 ≤ id ∧ id ≤ creations (a :: past) := fun hne =>
      ⟨(ih hne).1, Nat.le_trans (ih hne).2 hle⟩
    rw [bodyAfter] at h
    split at h
    · next hop =>
      split at h
      · next hid =>
        rw [creations_cons, if_pos hop]
        omega
      · exact hpast h
    · split at h
      · exact hpast (by simpa using h)
      · exact hpast h
    · split at h
      · exact absurd rfl h
      · exact hpast h
    · exact hpast h

/-- How the notes answer an action after others. -/
structure Answered (past : List Action) (a : Action) : Prop where
  /-- A creation answers how many there were by then. -/
  created : a.operation = .create →
    (a.run (storeAfter past)).1 =
      .returned (.value (.object [("id".toList, .number (.whole (creations (a :: past))))]))
  /-- Reading without a text lists what is there, in the order of the numbers. -/
  listed : a.operation = .read → (∀ t, a.args.head? ≠ some (.value (.string t))) →
    a.run (storeAfter past) =
      (.returned (.value (.array ((List.range' 1 (creations past)).filterMap (shownAfter past)))),
        storeAfter past)
  /-- Reading with a text answers the note that the text names, or null. -/
  found : a.operation = .read → ∀ t, a.args.head? = some (.value (.string t)) →
    a.run (storeAfter past) =
      (.returned (.value ((a.names?.bind (shownAfter past)).getD .null)), storeAfter past)
  /-- An update answers the note with its new body, or null if there was none. -/
  updated : a.operation = .update → ∀ id, a.names? = some id →
    (a.run (storeAfter past)).1 = .returned (.value (((bodyAfter id past).map fun _ =>
        .object [("id".toList, .number (.whole id)), ("note".toList, a.body)]).getD .null)) ∧
      (bodyAfter id past = none → (a.run (storeAfter past)).2 = storeAfter past)
  /-- A deletion answers whether the note was there. -/
  deleted : a.operation = .delete → ∀ id, a.names? = some id →
    (a.run (storeAfter past)).1 = .returned (.value (.bool (bodyAfter id past).isSome)) ∧
      (bodyAfter id past = none → (a.run (storeAfter past)).2 = storeAfter past)
  /-- To update or to delete, a number is required. -/
  unnamed : a.operation = .update ∨ a.operation = .delete → a.names? = none →
    ∃ e : InvocationError,
      e = .thrown (.array [.number (.whole 400), .string "note id required".toList]) ∧
        e.status? = some 400 ∧ a.run (storeAfter past) = (.failed e, storeAfter past)

theorem read_of_text {args : List Payload} {t : Text}
    (h : args.head? = some (.value (.string t))) :
    s.read args = .value (((args.head?.bind idOf?).bind s.get?).getD .null) := by
  rw [read, h]
  rfl

theorem read_of_no_text {args : List Payload} (h : ∀ t, args.head? ≠ some (.value (.string t))) :
    s.read args = .value (.array s.values) := by
  unfold read
  split
  · next t ht => exact absurd ht (h t)
  · rfl

theorem Shows.values_eq (h : Shows past s) :
    s.values = (List.range' 1 (creations past)).filterMap (shownAfter past) := by
  have hzero : s.get? 0 = none := by
    rw [h.get?, shownAfter_eq_none_iff]
    by_contra hne
    exact absurd (le_creations_of_bodyAfter hne).1 (by decide)
  rw [NoteStore.values_eq hzero, h.nextId, Nat.add_sub_cancel, h.get?]

/-- **Every action is answered as its history says.** -/
theorem answered (past : List Action) (a : Action) : Answered past a := by
  have hshows := shows_storeAfter past
  constructor
  case created =>
    intro hop
    rw [a.run_eq, hop, creations_cons, if_pos hop, ← hshows.nextId]
  case listed =>
    intro hop hargs
    rw [a.run_eq, hop, ← hshows.values_eq, ← read_of_no_text hargs]
  case found =>
    intro hop t hargs
    have hname : a.names? = a.args.head?.bind idOf? := by rw [Action.names?, hop]
    rw [a.run_eq, hop, ← hshows.get?, hname, ← read_of_text hargs]
  case updated =>
    intro hop id hid
    rw [a.run_eq, hop, hid]
    simp only [hshows.get?, shownAfter, Option.isSome_map]
    cases bodyAfter id past with
    | none => exact ⟨rfl, fun _ => rfl⟩
    | some body => exact ⟨rfl, nofun⟩
  case deleted =>
    intro hop id hid
    have hsome : ((storeAfter past).get? id).isSome = (bodyAfter id past).isSome := by
      rw [hshows.get?, shownAfter, Option.isSome_map]
    rw [a.run_eq, hop, hid, ← hsome]
    refine ⟨rfl, fun hnone => erase_of_get?_eq_none ?_⟩
    rw [hshows.get?, shownAfter_eq_none_iff, hnone]
  case unnamed =>
    intro hop hid
    refine ⟨idRequired, rfl, rfl, ?_⟩
    rw [a.run_eq, hid]
    rcases hop with hop | hop <;> rw [hop]

/-- **The notes are a map with fresh numbers.**  After any actions, every action is answered as the
    history says, the numbers in use are among those that were given out, a number is named by its
    numeral behind any zeros, and every number that was given out has a name. -/
theorem history_answered (past : List Action) (a : Action)
    (hcreations : creations (a :: past) < 2 ^ 64) :
    Answered past a ∧
      (∀ id, bodyAfter id past ≠ none → 1 ≤ id ∧ id ≤ creations past) ∧
      (∀ arg id, idOf? arg = some id ↔ id < 2 ^ 64 ∧ ∃ zeros,
        arg = .ofText (List.replicate zeros '0' ++ Numeral.decimal id) ∨
          arg = .ofText ('+' :: (List.replicate zeros '0' ++ Numeral.decimal id))) ∧
      ∀ id ≤ creations (a :: past), idOf? (.ofText (Numeral.decimal id)) = some id := by
  refine ⟨answered past a, fun id => le_creations_of_bodyAfter, fun _ _ => idOf?_eq_some_iff,
    fun id hid => ?_⟩
  exact idOf?_eq_some_iff.2 ⟨Nat.lt_of_le_of_lt hid hcreations, 0, .inl rfl⟩

/-- An action through a new session. -/
def Action.new (operation : Operation) (args : List Payload) : Action :=
  ⟨.new solution, operation, ⟨[], [], .empty⟩, args, .none, rfl⟩

/-- Two notes, of which the first is deleted: the third gets a number of its own, and the second is
    left. -/
theorem history_answered_third :
    let past := [Action.new .delete [.ofText "1".toList], .new .create [.ofText "b".toList],
      .new .create [.ofText "a".toList]]
    let create := Action.new .create []
    let list := Action.new .read []
    creations (create :: past) < 2 ^ 64 ∧
      (create.run (storeAfter past)).1 =
        .returned (.value (.object [("id".toList, .number (.whole 3))])) ∧
      (list.run (storeAfter past)).1 =
        .returned (.value (.array
          [.object [("id".toList, .number (.whole 2)), ("note".toList, .string "b".toList)]])) := by
  intro past create list
  have hcreations : creations (create :: past) < 2 ^ 64 := by decide
  have hlist := (history_answered past list (by decide)).1.listed rfl nofun
  exact ⟨hcreations, (history_answered past create hcreations).1.created rfl,
    congrArg Prod.fst hlist⟩

end SessionGateway.NoteStore
