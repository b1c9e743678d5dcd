/-
  Properties as a map — what stands under a name, however the entries came to be there.

  * `lookup_eq_some_iff_mem`: what stands under a key, where every key comes once;
  * `ext_get?`: properties are equal if the same texts stand under the same names;
  * `get?_insert`: a change of one name leaves the others as they are;
  * `ofList_eq_of_mem_iff`: properties are those of any list that holds their entries and no
    others, in any order and any number of times.
-/
import SessionGateway.Session.Properties

namespace SessionGateway

/-- Where every key comes once, what stands under a key is what comes with it. -/
theorem lookup_eq_some_iff_mem {κ β : Type} [BEq κ] [LawfulBEq κ] {es : List (κ × β)}
    (h : es.Pairwise fun a b => a.1 ≠ b.1) {k : κ} {v : β} :
    es.lookup k = some v ↔ (k, v) ∈ es := by
  rw [List.lookup_eq_some_iff]
  constructor
  · rintro ⟨before, after, rfl, -⟩
    exact List.mem_append_right _ List.mem_cons_self
  · intro hmem
    obtain ⟨before, after, rfl⟩ := List.append_of_mem hmem
    have hbefore := (List.pairwise_append.1 h).2.2
    refine ⟨before, after, rfl, fun e he => ?_⟩
    exact bne_iff_ne.2 (hbefore e he (k, v) List.mem_cons_self).symm

namespace Properties

/-! ## Entries and names -/

theorem ne_of_lt {s t : Text} (h : s < t) : s ≠ t := by
  rintro rfl
  exact List.lt_irrefl s h

theorem lookup_cons (n s name : Text) (es : List (Text × Text)) :
    ((n, s) :: es).lookup name = if name = n then some s else es.lookup name := by
  rw [List.lookup_cons]
  by_cases h : name = n
  · rw [if_pos h, beq_iff_eq.2 h]
  · rw [if_neg h, beq_eq_false_iff_ne.2 h]

variable {p q : Properties} {name other t : Text}

theorem get?_eq_some_iff : p.get? name = some t ↔ (name, t) ∈ p.entries :=
  lookup_eq_some_iff_mem (p.sorted.imp ne_of_lt)

/-- Sorted entries are determined by what they hold. -/
theorem eq_of_mem_iff {es fs : List (Text × Text)} (he : es.Pairwise fun a b => a.1 < b.1)
    (hf : fs.Pairwise fun a b => a.1 < b.1) (h : ∀ e, e ∈ es ↔ e ∈ fs) : es = fs := by
  induction es generalizing fs with
  | nil =>
    cases fs with
    | nil => rfl
    | cons f fs => exact absurd ((h f).2 List.mem_cons_self) List.not_mem_nil
  | cons e es ih =>
    cases fs with
    | nil => exact absurd ((h e).1 List.mem_cons_self) List.not_mem_nil
    | cons f fs =>
      rw [List.pairwise_cons] at he hf
      have hef : e = f := by
        rcases List.mem_cons.1 ((h e).1 List.mem_cons_self) with heq | hm
        · exact heq
        rcases List.mem_cons.1 ((h f).2 List.mem_cons_self) with heq | hm'
        · exact heq.symm
        · exact absurd (hf.1 e hm) (List.lt_asymm (he.1 f hm'))
      subst hef
      refine congrArg (e :: ·) (ih he.2 hf.2 fun x => ?_)
      have hx := h x
      rw [List.mem_cons, List.mem_cons] at hx
      constructor
      · intro hm
        exact (hx.1 (.inr hm)).resolve_left fun heq => ne_of_lt (he.1 x hm) (by rw [heq])
      · intro hm
        exact (hx.2 (.inr hm)).resolve_left fun heq => ne_of_lt (hf.1 x hm) (by rw [heq])

/-- **Properties are what stands under their names.** -/
theorem ext_get? (h : ∀ name, p.get? name = q.get? name) : p = q := by
  refine ext (eq_of_mem_iff p.sorted q.sorted fun e => ?_)
  rw [← get?_eq_some_iff, ← get?_eq_some_iff, h]

theorem isEmpty_iff : p.isEmpty = true ↔ p = empty := by
  rw [isEmpty, List.isEmpty_iff]
  exact ⟨fun h => ext h, fun h => h ▸ rfl⟩

/-! ## Changes -/

theorem lookup_insertEntry (es : List (Text × Text)) :
    (insertEntry name t es).lookup other = if other = name then some t else es.lookup other := by
  induction es with
  | nil => exact lookup_cons name t other []
  | cons e es ih =>
    obtain ⟨n, s⟩ := e
    rw [insertEntry, lookup_cons]
    split
    · next heq =>
      rw [lookup_cons, show n = name from heq.symm]
      split <;> rfl
    split
    · rw [lookup_cons, lookup_cons]
    · next hne _ =>
      rw [lookup_cons, ih]
      by_cases ho : other = name
      · rw [if_neg fun h => hne (ho.symm.trans h), if_pos ho, if_pos ho]
      · rw [if_neg ho, if_neg ho]

theorem get?_insert (p : Properties) (name t other : Text) :
    (p.insert name t).get? other = if other = name then some t else p.get? other :=
  lookup_insertEntry p.entries

/-! ## Lists of entries -/

/-- Entries that all stand in some properties, put in one by one. -/
theorem get?_foldl_insert {l : List (Text × Text)} (h : ∀ e ∈ l, e ∈ q.entries) :
    (l.foldl (fun p (e : Text × Text) => p.insert e.1 e.2) p).get? name =
      if name ∈ l.map (·.1) then q.get? name else p.get? name := by
  induction l generalizing p with
  | nil => simp
  | cons e l ih =>
    rw [List.forall_mem_cons] at h
    simp only [List.foldl_cons, ih h.2, get?_insert, List.map_cons, List.mem_cons]
    by_cases hl : name ∈ l.map (·.1)
    · rw [if_pos hl, if_pos (.inr hl)]
    · rw [if_neg hl]
      by_cases hn : name = e.1
      · rw [if_pos hn, if_pos (.inl hn), hn]
        exact (get?_eq_some_iff.2 h.1).symm
      · rw [if_neg hn, if_neg fun h => h.elim hn hl]

/-- **Properties are those of any list of their entries**, in any order and with repetitions. -/
theorem ofList_eq_of_mem_iff {l : List (Text × Text)} (h : ∀ e, e ∈ l ↔ e ∈ q.entries) :
    ofList l = q := by
  refine ext_get? fun name => ?_
  have hl : (ofList l).get? name = if name ∈ l.map (·.1) then q.get? name else none :=
    get?_foldl_insert fun e he => (h e).1 he
  rw [hl]
  split
  · rfl
  · next hn =>
    symm
    rw [Option.eq_none_iff_forall_ne_some]
    intro t ht
    exact hn (List.mem_map_of_mem ((h _).2 (get?_eq_some_iff.1 ht)))

@[simp] theorem ofList_entries (p : Properties) : ofList p.entries = p :=
  ofList_eq_of_mem_iff fun _ => Iff.rfl

end Properties

end SessionGateway
