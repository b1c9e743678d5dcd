/-
  Queries — what becomes of the pairs of a query.

  An operation gets the pairs as an object, in which each name stands where it first appeared, with
  the list of all its values (`Arguments.grouped`).  A value of the authentication takes one place
  in that object and leaves the others alone (`Arguments.handed`).

  A single parameter is read without that object: it is the first value of its name, or nothing if
  that one is empty.

  * `queryMap_eq_grouped`: what the object of a query is;
  * `build_assembled`: so the arguments of an operation hold the whole query, in its order;
  * `queryParam?_first_iff`: the value that is read of a parameter is the first of its list that is
    not empty, unless an empty one stands before it.
-/
import Mathlib.Algebra.BigOperators.Group.List.Lemmas
import Mathlib.Algebra.GroupWithZero.Nat
import Mathlib.Data.List.Nodup
import SessionGateway.Proofs.Dispatch.Parameters
import SessionGateway.Proofs.Text.Percent

namespace SessionGateway

/-! ## Written queries -/

namespace Form

/-- A text that stands for a name or a value: octets may be escaped, and `+` is a space. -/
def Spells (field t : Text) : Prop :=
  Percent.Spells (Utf8.encode field) (t.map fun c => if c = '+' then ' ' else c)

theorem field_of_spells {s t : Text} (h : Spells s t) : field t = s := by
  rw [field, Percent.decode_of_spells h, Utf8.decodeLossy_encode]

/-- A text without escapes stands for itself, apart from the spaces. -/
theorem spells_unescaped {s t : Text} (h : '%' ∉ t)
    (hs : (t.map fun c => if c = '+' then ' ' else c) = s) : Spells s t := by
  rw [Spells, hs]
  refine Percent.spells_self fun hmem => h ?_
  obtain ⟨c, hc, he⟩ := List.mem_map.1 (hs ▸ hmem)
  split at he
  · cases he
  · exact he ▸ hc

/-- The pieces of a query that write a pair. -/
inductive Writes : Text × Text → Text → Prop where
  | pair {name value n v} : Spells name n → Spells value v → '=' ∉ n →
      Writes (name, value) (n ++ '=' :: v)
  /-- An empty value may go without its sign. -/
  | bare {name n} : Spells name n → '=' ∉ n → n ≠ [] → Writes (name, []) n

theorem pair_of_writes {p : Text × Text} {piece : Text} (h : Writes p piece) :
    pair piece = p ∧ piece ≠ [] := by
  cases h with
  | pair hn hv hsign =>
    have hfields : (field _, field _) = (_, _) :=
      Prod.ext (field_of_spells hn) (field_of_spells hv)
    rw [pair, cut?_append_cons hsign]
    exact ⟨hfields, by simp⟩
  | bare hn hsign hne =>
    have hcut : cut? '=' piece = none := by
      refine Option.eq_none_iff_forall_ne_some.2 fun cut hcut => hsign ?_
      rw [(cut?_eq_some hcut).1]
      exact List.mem_append_right _ List.mem_cons_self
    rw [pair, hcut]
    exact ⟨by rw [field_of_spells hn], hne⟩

/-- The queries that write pairs: a piece for each of them in order, divided by `&`, and empty
    pieces anywhere. -/
inductive Written : List (Text × Text) → Text → Prop where
  | nil : Written [] []
  | last {p piece} : Writes p piece → '&' ∉ piece → Written [p] piece
  | blank {pairs t} : Written pairs t → Written pairs ('&' :: t)
  | cons {p piece pairs t} : Writes p piece → '&' ∉ piece → Written pairs t →
      Written (p :: pairs) (piece ++ '&' :: t)

theorem pairs_append {piece : Text} (h : '&' ∉ piece) (t : Text) :
    pairs (piece ++ '&' :: t) = pairs piece ++ pairs t := by
  simp only [pairs, List.splitOn_append_cons_self, List.splitOn_eq_singleton h,
    List.filter_append, List.map_append]

theorem pairs_piece {p : Text × Text} {piece : Text} (hp : Writes p piece) (h : '&' ∉ piece) :
    pairs piece = [p] := by
  obtain ⟨hpair, hne⟩ := pair_of_writes hp
  rw [pairs, List.splitOn_eq_singleton h, List.filter_cons_of_pos (by simpa using hne),
    List.filter_nil, List.map_singleton, hpair]

/-- **A query is read as the pairs that it writes.** -/
theorem pairs_of_written {ps : List (Text × Text)} {t : Text} (h : Written ps t) :
    pairs t = ps := by
  induction h with
  | nil => rfl
  | last hp hpiece => exact pairs_piece hp hpiece
  | @blank ps t _ ih => exact (pairs_append List.not_mem_nil t).trans ih
  | cons hp hpiece _ ih => rw [pairs_append hpiece, pairs_piece hp hpiece, ih, List.singleton_append]

/-- **Every list of pairs is written by some query**, with letters, digits and escapes alone. -/
theorem exists_written (ps : List (Text × Text)) : ∃ t, Written ps t := by
  have hplain : ∀ s, ∀ c ∈ Percent.encode s, c ≠ '+' ∧ c ≠ '=' ∧ c ≠ '&' := by
    intro s c hc
    obtain hletter | rfl := Percent.mem_encode hc
    · refine ⟨?_, ?_, ?_⟩ <;> rintro rfl <;> exact absurd hletter (by decide)
    · decide
  have hspells : ∀ s, Spells s (Percent.encode s) := by
    intro s
    have hself : (Percent.encode s).map (fun c => if c = '+' then ' ' else c) = Percent.encode s :=
      (List.map_congr_left fun c hc => if_neg (hplain s c hc).1).trans (List.map_id _)
    rw [Spells, hself]
    exact Percent.spells_encode s
  induction ps with
  | nil => exact ⟨[], .nil⟩
  | cons p ps ih =>
    obtain ⟨t, ht⟩ := ih
    obtain ⟨name, value⟩ := p
    refine ⟨_, .cons (.pair (hspells name) (hspells value) fun h => (hplain _ _ h).2.1 rfl) ?_ ht⟩
    rw [List.mem_append, List.mem_cons]
    rintro (h | h | h)
    · exact (hplain _ _ h).2.2 rfl
    · cases h
    · exact (hplain _ _ h).2.2 rfl

end Form

/-! ## Members -/

namespace Json.Members

variable {name : Text} {ms : Members}

/-- **An object is what stands under its names**, in their order, if each stands there once. -/
theorem eq_map_names (hnodup : (names ms).Nodup) {value : Text → Json}
    (h : ∀ name ∈ names ms, get? name ms = some (value name)) :
    ms = (names ms).map fun name => (name, value name) := by
  induction ms with
  | nil => rfl
  | cons m ms ih =>
    obtain ⟨n, v⟩ := m
    obtain ⟨hn, hnodup⟩ := List.nodup_cons.1 hnodup
    have hhead : v = value n := by
      have hget := h n List.mem_cons_self
      rw [get?, List.lookup_cons_self] at hget
      exact Option.some.inj hget
    have htail : ∀ name ∈ names ms, get? name ms = some (value name) := by
      intro name hname
      have hne : (name == n) = false := beq_eq_false_iff_ne.2 fun he => hn (he ▸ hname)
      have hget := h name (List.mem_cons_of_mem _ hname)
      rwa [get?, List.lookup_cons, hne] at hget
    rw [hhead]
    exact congrArg ((n, value n) :: ·) (ih hnodup htail)

/-- A value that is put in takes the place of the one under its name. -/
theorem insert_of_mem (hnodup : ms.names.Nodup) (h : name ∈ ms.names) (value : Json) :
    ms.insert name value = ms.map fun m => if m.1 = name then (m.1, value) else m := by
  induction ms with
  | nil => cases h
  | cons m ms ih =>
    obtain ⟨n, v⟩ := m
    obtain ⟨hn, hnodup⟩ := List.nodup_cons.1 hnodup
    rw [insert, List.map_cons]
    split
    · next he =>
      subst he
      have hrest : ms.map (fun m => if m.1 = n then (m.1, value) else m) = ms := by
        refine (List.map_congr_left fun m hm => if_neg fun he => hn ?_).trans (List.map_id ms)
        exact List.mem_map.2 ⟨m, hm, he⟩
      rw [hrest]
    · next hne => rw [ih hnodup ((List.mem_cons.1 h).resolve_left (Ne.symm hne))]

end Json.Members

namespace Arguments

/-! ## The object of a query -/

/-- The names of pairs, each once, in the order in which they first appear. -/
def firstNames (pairs : List (Text × Text)) : List Text := (pairs.map (·.1)).eraseDups

/-- Each name of the pairs with the list of its values. -/
def grouped (pairs : List (Text × Text)) : Json.Members :=
  (firstNames pairs).map fun name => (name, .array ((valuesOf name pairs).map .string))

variable {pairs : List (Text × Text)} {name : Text}

theorem mem_firstNames : name ∈ firstNames pairs ↔ ∃ value, (name, value) ∈ pairs := by
  rw [firstNames, List.mem_eraseDups, List.mem_map]
  constructor
  · rintro ⟨p, hp, rfl⟩
    exact ⟨p.2, hp⟩
  · rintro ⟨value, hp⟩
    exact ⟨_, hp, rfl⟩

theorem firstNames_append_singleton (pairs : List (Text × Text)) (p : Text × Text) :
    firstNames (pairs ++ [p]) =
      if p.1 ∈ firstNames pairs then firstNames pairs else firstNames pairs ++ [p.1] := by
  simp only [firstNames, List.map_append, List.map_singleton, List.eraseDups_append,
    List.mem_eraseDups, List.removeAll]
  by_cases h : p.1 ∈ pairs.map (·.1)
  · simp [h]
  · simp [h, List.eraseDups_cons]

/-- **Each name stands behind those that appeared before it.** -/
theorem firstNames_ordered (pairs : List (Text × Text)) :
    (firstNames pairs).Pairwise fun m n =>
      (pairs.map (·.1)).idxOf m < (pairs.map (·.1)).idxOf n := by
  induction pairs using List.reverseRecOn with
  | nil => exact .nil
  | append_singleton pairs p ih =>
    have hmem : ∀ {n}, n ∈ firstNames pairs → n ∈ pairs.map (·.1) := List.mem_eraseDups.1
    have hold : (firstNames pairs).Pairwise fun m n =>
        ((pairs ++ [p]).map (·.1)).idxOf m < ((pairs ++ [p]).map (·.1)).idxOf n := by
      refine ih.imp_of_mem fun hm hn hlt => ?_
      rwa [List.map_append, List.idxOf_append_of_mem (hmem hm), List.idxOf_append_of_mem (hmem hn)]
    rw [firstNames_append_singleton]
    split
    · exact hold
    · next hp =>
      refine List.pairwise_append.2 ⟨hold, List.pairwise_singleton _ _, fun m hm n hn => ?_⟩
      rw [List.mem_singleton.1 hn, List.map_append, List.idxOf_append_of_mem (hmem hm),
        List.idxOf_append_of_notMem (mt List.mem_eraseDups.2 hp)]
      exact Nat.lt_add_right _ (List.idxOf_lt_length_of_mem (hmem hm))

theorem nodup_firstNames (pairs : List (Text × Text)) : (firstNames pairs).Nodup := by
  refine (firstNames_ordered pairs).imp ?_
  rintro m _ hlt rfl
  exact Nat.lt_irrefl _ hlt

theorem valuesOf_ne_nil (h : name ∈ firstNames pairs) : valuesOf name pairs ≠ [] := by
  obtain ⟨value, hp⟩ := mem_firstNames.1 h
  have hmem : value ∈ valuesOf name pairs :=
    List.mem_map.2 ⟨_, List.mem_filter.2 ⟨hp, beq_self_eq_true name⟩, rfl⟩
  exact List.ne_nil_of_mem hmem

theorem names_addValue (ms : Json.Members) (name value : Text) :
    (addValue ms name value).names =
      if name ∈ ms.names then ms.names else ms.names ++ [name] := by
  unfold addValue
  split <;> exact Json.Members.names_insert _ _ _

theorem names_queryMap (query : Text) : (queryMap query).names = firstNames (Form.pairs query) := by
  rw [queryMap]
  induction Form.pairs query using List.reverseRecOn with
  | nil => rfl
  | append_singleton pairs p ih =>
    rw [List.foldl_append, List.foldl_cons, List.foldl_nil, names_addValue, ih,
      firstNames_append_singleton]

/-- **The object of a query holds its pairs**, grouped by their names. -/
theorem queryMap_eq_grouped (query : Text) : queryMap query = grouped (Form.pairs query) := by
  have hnames := names_queryMap query
  rw [grouped, ← hnames]
  refine Json.Members.eq_map_names (hnames ▸ nodup_firstNames _) fun name hname => ?_
  rw [hnames] at hname
  rw [get?_queryMap, asked, Option.map_some, Option.getD_some]
  cases hvalues : valuesOf name (Form.pairs query) with
  | nil => exact absurd hvalues (valuesOf_ne_nil hname)
  | cons v values => rfl

/-- **No value is lost**: the lists of all names are together as long as there are pairs. -/
theorem sum_length_valuesOf (pairs : List (Text × Text)) :
    ((firstNames pairs).map fun name => (valuesOf name pairs).length).sum = pairs.length := by
  have hcount : ∀ name, (valuesOf name pairs).length =
      (pairs.map (·.1)).countP fun n => decide (n = name) := by
    intro name
    rw [valuesOf, List.length_map, ← List.countP_eq_length_filter, List.countP_map]
    exact List.countP_congr fun p _ => by simp
  have hperm : (firstNames pairs).Perm (pairs.map (·.1)).dedup := by
    rw [List.perm_ext_iff_of_nodup (nodup_firstNames pairs) (List.nodup_dedup _)]
    intro name
    rw [firstNames, List.mem_eraseDups, List.mem_dedup]
  calc ((firstNames pairs).map fun name => (valuesOf name pairs).length).sum
    _ = ((pairs.map (·.1)).dedup.map fun name => (valuesOf name pairs).length).sum :=
      (hperm.map _).sum_eq
    _ = ((pairs.map (·.1)).dedup.map fun name =>
          (pairs.map (·.1)).countP fun n => decide (n = name)).sum := by simp only [hcount]
    _ = (pairs.map (·.1)).length := List.sum_map_count_dedup_eq_length _
    _ = pairs.length := List.length_map _

/-! ## The arguments of an operation -/

/-- An object with the value of the authentication: in the place of what stands under its name, or
    else behind everything. -/
def handed (extra : Option Payload) (ms : Json.Members) : Json.Members :=
  match extra with
  | none => ms
  | some p =>
    if ms.names.contains authenticateKey then
      ms.map fun m => if m.1 = authenticateKey then (m.1, .array [p.toJson]) else m
    else ms ++ [(authenticateKey, .array [p.toJson])]

theorem names_grouped (pairs : List (Text × Text)) : (grouped pairs).names = firstNames pairs := by
  rw [Json.Members.names, grouped, List.map_map]
  exact List.map_id _

theorem parameters_eq_handed (query : Option Text) (extra : Option Payload) :
    parameters query extra = handed extra (grouped ((query.map Form.pairs).getD [])) := by
  have hquery : (query.map queryMap).getD [] = grouped ((query.map Form.pairs).getD []) := by
    cases query with
    | none => rfl
    | some q => exact queryMap_eq_grouped q
  have hnodup : (grouped ((query.map Form.pairs).getD [])).names.Nodup :=
    names_grouped _ ▸ nodup_firstNames _
  rw [parameters.eq_def, hquery]
  cases extra with
  | none => rfl
  | some p =>
    simp only [handed]
    split
    · next h => exact Json.Members.insert_of_mem hnodup (List.contains_iff_mem.1 h) _
    · next h => exact Json.Members.insert_of_notMem (mt List.contains_iff_mem.2 h) _

/-- There is an object exactly if the query is not empty, or the authentication gave a value. -/
theorem slot_eq (query : Option Text) (extra : Option Payload) :
    slot query extra =
      if (query.getD []).isEmpty ∧ extra.isNone then []
      else [.value (.object (parameters query extra))] := by
  match query with
  | none | some [] | some (c :: q) => cases extra <;> rfl

/-- **The arguments of an operation** are the body, the segments of the path, and one object if
    there is a query or a value of the authentication.  The object holds every value of the query,
    under the names in the order in which they appear, with the value of the authentication in its
    one place. -/
theorem build_assembled (body : Option Payload) (segments : List Text) (query : Option Text)
    (extra : Option Payload) :
    let pairs := (query.map Form.pairs).getD []
    build body segments query extra =
        body.toList ++ segments.map (fun s => .value (.string s)) ++
          (if (query.getD []).isEmpty ∧ extra.isNone then []
            else [.value (.object (handed extra (grouped pairs)))]) ∧
      (∀ q written, query = some q → Form.Written written q → pairs = written) ∧
      ((firstNames pairs).Pairwise fun m n =>
        (pairs.map (·.1)).idxOf m < (pairs.map (·.1)).idxOf n) ∧
      (∀ name, name ∈ firstNames pairs ↔ ∃ value, (name, value) ∈ pairs) ∧
      ((firstNames pairs).map fun name => (valuesOf name pairs).length).sum = pairs.length := by
  intro pairs
  refine ⟨?_, ?_, firstNames_ordered pairs, fun name => mem_firstNames, sum_length_valuesOf pairs⟩
  · rw [build_eq, slot_eq, parameters_eq_handed]
    rfl
  · rintro q written rfl hwritten
    exact Form.pairs_of_written hwritten

/-- Two values of one name stand in one list, where the first of them was. -/
theorem build_assembled_repeated :
    let query := "q=x&limit=5&q=y+z".toList
    let written := [("q".toList, "x".toList), ("limit".toList, "5".toList),
      ("q".toList, "y z".toList)]
    Form.Written written query ∧
      build none [] (some query) none = [.value (.object (grouped written))] ∧
      firstNames written = ["q".toList, "limit".toList] := by
  intro query written
  have hfirst : Form.Writes ("q".toList, "x".toList) "q=x".toList :=
    .pair (n := ['q']) (Form.spells_unescaped (by decide) rfl)
      (Form.spells_unescaped (by decide) rfl) (by decide)
  have hsecond : Form.Writes ("limit".toList, "5".toList) "limit=5".toList :=
    .pair (n := "limit".toList) (Form.spells_unescaped (by decide) rfl)
      (Form.spells_unescaped (by decide) rfl) (by decide)
  have hthird : Form.Writes ("q".toList, "y z".toList) "q=y+z".toList :=
    .pair (n := ['q']) (v := "y+z".toList) (Form.spells_unescaped (by decide) rfl)
      (Form.spells_unescaped (by decide) rfl) (by decide)
  have hwritten : Form.Written written query :=
    .cons hfirst (by decide) (.cons hsecond (by decide) (.last hthird (by decide)))
  obtain ⟨hbuild, hpairs, -⟩ := build_assembled none [] (some query) none
  have hread : (some (Form.pairs query)).getD [] = written := hpairs query written rfl hwritten
  rw [Option.map_some, hread] at hbuild
  exact ⟨hwritten, hbuild, by decide⟩

/-! ## A single parameter -/

/-- The texts in the list under a name. -/
def textsOf : Option Json → List Text
  | some (.array items) => items.filterMap fun
    | .string t => some t
    | _ => none
  | _ => []

theorem textsOf_get?_queryMap (query name : Text) :
    textsOf ((queryMap query).get? name) = valuesOf name (Form.pairs query) := by
  rw [get?_queryMap, asked, Option.map_some, Option.getD_some]
  cases valuesOf name (Form.pairs query) with
  | nil => rfl
  | cons v values =>
    rw [listed, textsOf, List.filterMap_map]
    exact List.filterMap_some

theorem lookup_eq_head? (name : Text) (pairs : List (Text × Text)) :
    pairs.lookup name = (valuesOf name pairs).head? := by
  induction pairs with
  | nil => rfl
  | cons p pairs ih =>
    obtain ⟨n, v⟩ := p
    by_cases hn : n = name
    · simp [valuesOf, hn]
    · have hne : (name == n) = false := beq_eq_false_iff_ne.2 (Ne.symm hn)
      rw [List.lookup_cons, hne, ih]
      simp [valuesOf, hn]

/-- **The value that is read of a parameter** is the first one in its list, if that is not empty.
    So it is the first one that is not empty, exactly if no empty one stands before that. -/
theorem queryParam?_first_iff (query name : Text) :
    let values := textsOf ((queryMap query).get? name)
    queryParam? (some query) name = values.head?.filter (!·.isEmpty) ∧
      (queryParam? (some query) name = values.find? (!·.isEmpty) ↔
        (values.head? = some [] → ∀ v ∈ values, v = [])) := by
  intro values
  have hhead : queryParam? (some query) name = values.head?.filter (!·.isEmpty) := by
    rw [queryParam?, Option.bind_some, lookup_eq_head?, ← textsOf_get?_queryMap]
  refine ⟨hhead, ?_⟩
  rw [hhead]
  cases values with
  | nil => simp
  | cons v values =>
    cases v with
    | nil =>
      have hfind : none = values.find? (!·.isEmpty) ↔ ∀ v ∈ values, v = [] := by
        rw [eq_comm, List.find?_eq_none]
        simp
      have hall : ([] :: values).find? (!·.isEmpty) = values.find? (!·.isEmpty) := rfl
      rw [List.head?_cons, hall, List.forall_mem_cons, and_iff_right rfl]
      exact hfind.trans (imp_iff_right rfl).symm
    | cons c v => simp

/-- An empty value stands before one that is not: nothing is read. -/
theorem queryParam?_hidden :
    let query := "callback=&callback=cb".toList
    let values := textsOf ((queryMap query).get? "callback".toList)
    values = [[], "cb".toList] ∧ values.find? (!·.isEmpty) = some "cb".toList ∧
      queryParam? (some query) "callback".toList = none := by
  decide +kernel

end Arguments

end SessionGateway
