/-
  Parts of a value — what a JSON value is made of.

  `Json.parts` are the values within a value, itself among them; their strings and names are its
  texts.  `Json.Proper` says what every value of the library has: the names of an object are not
  repeated, and whole numbers fit sixty-four bits.  `Json.mapText` replaces the characters of the
  texts, and leaves all else as it is.

  * `allChars_array`, `allChars_object`: the characters of a composed value are those of its
    components;
  * `proper_array`, `proper_object`: a composed value is proper if its components are and its
    names are not repeated;
  * `number_mem_mapText`: other characters leave the numbers as they are;
  * `mapText_eq_self`: characters that stay leave the value as it is.
-/
import SessionGateway.Json.Value

namespace SessionGateway.Json

/-! ## Parts -/

mutual

/-- A value, and all the values within it. -/
def parts : Json → List Json
  | .array items => .array items :: partsItems items
  | .object members => .object members :: partsMembers members
  | v => [v]

/-- The parts of the items of an array. -/
def partsItems : List Json → List Json
  | [] => []
  | v :: items => parts v ++ partsItems items

/-- The parts of the values of an object. -/
def partsMembers : List (Text × Json) → List Json
  | [] => []
  | (_, v) :: members => parts v ++ partsMembers members

end

mutual

/-- How deep arrays and objects nest in a value. -/
def depth : Json → Nat
  | .array items => depthItems items + 1
  | .object members => depthMembers members + 1
  | _ => 0

/-- The greatest depth of some items. -/
def depthItems : List Json → Nat
  | [] => 0
  | v :: items => max (depth v) (depthItems items)

/-- The greatest depth of the values of some members. -/
def depthMembers : List (Text × Json) → Nat
  | [] => 0
  | (_, v) :: members => max (depth v) (depthMembers members)

end

/-- What every value has: whole numbers of sixty-four bits, with a sign or without one, and objects
    whose names are not repeated. -/
structure Proper (v : Json) : Prop where
  whole : ∀ i : Int, .number (.whole i) ∈ v.parts → -0x8000000000000000 ≤ i ∧ i ≤ Numeral.max64
  names : ∀ members, .object members ∈ v.parts → (members.map (·.1)).Nodup

/-! ## Texts -/

/-- The texts of a part without those of its own parts. -/
def ownTexts : Json → List Text
  | .string t => [t]
  | .object members => members.map (·.1)
  | _ => []

/-- The strings and the names of a value. -/
def texts (v : Json) : List Text := v.parts.flatMap ownTexts

/-- Every character of the strings and the names of a value has a property. -/
def AllChars (P : Char → Prop) (v : Json) : Prop := ∀ t ∈ v.texts, ∀ c ∈ t, P c

section
variable {P : Char → Prop}

theorem allChars_string {t : Text} : (string t).AllChars P ↔ ∀ c ∈ t, P c := by
  simp [AllChars, texts, parts, ownTexts]

theorem mem_partsItems {w : Json} {items : List Json} :
    w ∈ partsItems items ↔ ∃ v ∈ items, w ∈ v.parts := by
  induction items with
  | nil => simp [partsItems]
  | cons v items ih => simp [partsItems, ih]

theorem mem_partsMembers {w : Json} {members : Members} :
    w ∈ partsMembers members ↔ ∃ m ∈ members, w ∈ m.2.parts := by
  induction members with
  | nil => simp [partsMembers]
  | cons m members ih => simp [partsMembers, ih]

/-- The characters of an array are those of its items. -/
theorem allChars_array {items : List Json} :
    (array items).AllChars P ↔ ∀ v ∈ items, v.AllChars P := by
  unfold AllChars texts
  constructor
  · intro h v hv t ht
    obtain ⟨w, hw, ht⟩ := List.mem_flatMap.1 ht
    exact h t (List.mem_flatMap.2
      ⟨w, List.mem_cons_of_mem _ (mem_partsItems.2 ⟨v, hv, hw⟩), ht⟩)
  · intro h t ht
    obtain ⟨w, hw, ht⟩ := List.mem_flatMap.1 ht
    rcases List.mem_cons.1 hw with rfl | hw
    · cases ht
    · obtain ⟨v, hv, hw⟩ := mem_partsItems.1 hw
      exact h v hv t (List.mem_flatMap.2 ⟨w, hw, ht⟩)

/-- The characters of an object are those of its names and its values. -/
theorem allChars_object {members : Members} :
    (object members).AllChars P ↔ ∀ m ∈ members, (∀ c ∈ m.1, P c) ∧ m.2.AllChars P := by
  unfold AllChars texts
  constructor
  · intro h m hm
    refine ⟨fun c hc => h m.1 ?_ c hc, fun t ht => ?_⟩
    · exact List.mem_flatMap.2 ⟨_, List.mem_cons_self, List.mem_map_of_mem hm⟩
    · obtain ⟨w, hw, ht⟩ := List.mem_flatMap.1 ht
      exact h t (List.mem_flatMap.2
        ⟨w, List.mem_cons_of_mem _ (mem_partsMembers.2 ⟨m, hm, hw⟩), ht⟩)
  · intro h t ht
    obtain ⟨w, hw, ht⟩ := List.mem_flatMap.1 ht
    rcases List.mem_cons.1 hw with rfl | hw
    · obtain ⟨m, hm, rfl⟩ := List.mem_map.1 ht
      exact (h m hm).1
    · obtain ⟨m, hm, hw⟩ := mem_partsMembers.1 hw
      exact (h m hm).2 t (List.mem_flatMap.2 ⟨w, hw, ht⟩)

end

/-! ## Values that are proper -/

/-- A value without parts of its own is proper, unless it is too great a number. -/
theorem proper_of_parts {v : Json} (h : v.parts = [v]) (hobject : ∀ members, v ≠ .object members)
    (hwhole : ∀ i : Int, v = .number (.whole i) → -0x8000000000000000 ≤ i ∧ i ≤ Numeral.max64) :
    v.Proper := by
  constructor
  · intro i hi
    rw [h, List.mem_singleton] at hi
    exact hwhole i hi.symm
  · intro members hm
    rw [h, List.mem_singleton] at hm
    exact absurd hm.symm (hobject members)

/-- An array is proper exactly if its items are. -/
theorem proper_array {items : List Json} : (array items).Proper ↔ ∀ v ∈ items, v.Proper := by
  constructor
  · intro h v hv
    have hparts : ∀ {w : Json}, w ∈ v.parts → w ∈ (array items).parts := fun hw =>
      List.mem_cons_of_mem _ (mem_partsItems.2 ⟨v, hv, hw⟩)
    exact ⟨fun i hi => h.whole i (hparts hi), fun ms hms => h.names ms (hparts hms)⟩
  · intro h
    constructor
    · intro i hi
      obtain hi | hi := List.mem_cons.1 hi
      · cases hi
      · obtain ⟨v, hv, hi⟩ := mem_partsItems.1 hi
        exact (h v hv).whole i hi
    · intro ms hms
      obtain hms | hms := List.mem_cons.1 hms
      · cases hms
      · obtain ⟨v, hv, hms⟩ := mem_partsItems.1 hms
        exact (h v hv).names ms hms

/-- An object is proper exactly if its names are not repeated and its values are proper. -/
theorem proper_object {members : Members} :
    (object members).Proper ↔ (members.map (·.1)).Nodup ∧ ∀ m ∈ members, m.2.Proper := by
  constructor
  · intro h
    refine ⟨h.names members List.mem_cons_self, fun m hm => ?_⟩
    have hparts : ∀ {w : Json}, w ∈ m.2.parts → w ∈ (object members).parts := fun hw =>
      List.mem_cons_of_mem _ (mem_partsMembers.2 ⟨m, hm, hw⟩)
    exact ⟨fun i hi => h.whole i (hparts hi), fun ms hms => h.names ms (hparts hms)⟩
  · rintro ⟨hnames, h⟩
    constructor
    · intro i hi
      obtain hi | hi := List.mem_cons.1 hi
      · cases hi
      · obtain ⟨m, hm, hi⟩ := mem_partsMembers.1 hi
        exact (h m hm).whole i hi
    · intro ms hms
      obtain hms | hms := List.mem_cons.1 hms
      · cases hms
        exact hnames
      · obtain ⟨m, hm, hms⟩ := mem_partsMembers.1 hms
        exact (h m hm).names ms hms

/-! ## Other characters -/

section
variable (f : Char → Char)

mutual

/-- The value with other characters in its strings and its names. -/
def mapText : Json → Json
  | .string t => .string (t.map f)
  | .array items => .array (mapItems items)
  | .object members => .object (mapMembers members)
  | v => v

/-- The items with other characters. -/
def mapItems : List Json → List Json
  | [] => []
  | v :: items => mapText v :: mapItems items

/-- The members with other characters. -/
def mapMembers : List (Text × Json) → List (Text × Json)
  | [] => []
  | (k, v) :: members => (k.map f, mapText v) :: mapMembers members

end

mutual

/-- Other characters leave the numbers as they are. -/
theorem number_mem_mapText {n : Number} :
    ∀ v : Json, .number n ∈ (v.mapText f).parts ↔ .number n ∈ v.parts
  | .null | .bool _ | .number _ => Iff.rfl
  | .string _ => by simp [mapText, parts]
  | .array items => by simp [mapText, parts, number_mem_mapItems items]
  | .object members => by simp [mapText, parts, number_mem_mapMembers members]

theorem number_mem_mapItems {n : Number} :
    ∀ items : List Json, .number n ∈ partsItems (mapItems f items) ↔ .number n ∈ partsItems items
  | [] => Iff.rfl
  | v :: items => by
    simp [mapItems, partsItems, number_mem_mapText v, number_mem_mapItems items]

theorem number_mem_mapMembers {n : Number} :
    ∀ members : List (Text × Json),
      .number n ∈ partsMembers (mapMembers f members) ↔ .number n ∈ partsMembers members
  | [] => Iff.rfl
  | (_, v) :: members => by
    simp [mapMembers, partsMembers, number_mem_mapText v, number_mem_mapMembers members]

end

variable {f} {P : Char → Prop}

mutual

/-- What all new characters have, all characters of the result have. -/
theorem allChars_mapText (h : ∀ c, P (f c)) : ∀ v : Json, (v.mapText f).AllChars P
  | .null | .bool _ | .number _ => nofun
  | .string _ => allChars_string.2 (List.forall_mem_map.2 fun c _ => h c)
  | .array items => allChars_array.2 (allChars_mapItems h items)
  | .object members => allChars_object.2 (allChars_mapMembers h members)

theorem allChars_mapItems (h : ∀ c, P (f c)) :
    ∀ items : List Json, ∀ v ∈ mapItems f items, v.AllChars P
  | [] => nofun
  | v :: items => List.forall_mem_cons.2 ⟨allChars_mapText h v, allChars_mapItems h items⟩

theorem allChars_mapMembers (h : ∀ c, P (f c)) :
    ∀ members : List (Text × Json), ∀ m ∈ mapMembers f members,
      (∀ c ∈ m.1, P c) ∧ m.2.AllChars P
  | [] => nofun
  | (_, v) :: members =>
    List.forall_mem_cons.2
      ⟨⟨List.forall_mem_map.2 fun c _ => h c, allChars_mapText h v⟩, allChars_mapMembers h members⟩

end

mutual

/-- Characters that stay leave the value as it is. -/
theorem mapText_eq_self : ∀ {v : Json}, v.AllChars (fun c => f c = c) → v.mapText f = v
  | .null, _ | .bool _, _ | .number _, _ => rfl
  | .string t, h =>
    congrArg string ((List.map_congr_left (allChars_string.1 h)).trans (List.map_id t))
  | .array _, h => congrArg array (mapItems_eq_self (allChars_array.1 h))
  | .object _, h => congrArg object (mapMembers_eq_self (allChars_object.1 h))

theorem mapItems_eq_self : ∀ {items : List Json},
    (∀ v ∈ items, v.AllChars fun c => f c = c) → mapItems f items = items
  | [], _ => rfl
  | v :: items, h => by
    rw [List.forall_mem_cons] at h
    rw [mapItems, mapText_eq_self h.1, mapItems_eq_self h.2]

theorem mapMembers_eq_self : ∀ {members : List (Text × Json)},
    (∀ m ∈ members, (∀ c ∈ m.1, f c = c) ∧ m.2.AllChars fun c => f c = c) →
      mapMembers f members = members
  | [], _ => rfl
  | (k, v) :: members, h => by
    rw [List.forall_mem_cons] at h
    have hk : k.map f = k := (List.map_congr_left h.1.1).trans (List.map_id k)
    rw [mapMembers, hk, mapText_eq_self h.1.2, mapMembers_eq_self h.2]

end

end

end SessionGateway.Json
