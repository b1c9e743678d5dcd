/-
  Proper values — what is built from a document has distinct names and whole numbers in range.

  A text is coerced to a whole number only if it fits sixty-four bits with a sign, and a name that
  comes again goes to the array under it.  So everything that the reader holds is proper, the
  members of the document and of each open element, and each piece keeps it so.

  * `proper_coerce`, `proper_accumulate`: the values of texts and the members that gather them;
  * `proper_step`, `proper_run`: one piece, and a run over pieces;
  * `proper_of_read`: a document that is read is a proper object.
-/
import Mathlib.Data.List.Nodup
import Mathlib.Data.List.TakeDrop
import SessionGateway.Proofs.Json.Parts
import SessionGateway.Xml.Reading

namespace SessionGateway

/-! ## Members -/

namespace Json.Members

variable {name : Text} {value : Json} {ms : Members}

theorem eq_or_mem_of_mem_insert {m : Text × Json} (h : m ∈ ms.insert name value) :
    m = (name, value) ∨ m ∈ ms := by
  induction ms with
  | nil => exact .inl (List.mem_singleton.1 h)
  | cons n ms ih =>
    rw [insert] at h
    split at h
    · next hn =>
      obtain rfl | h := List.mem_cons.1 h
      · exact .inl (by rw [hn])
      · exact .inr (List.mem_cons_of_mem _ h)
    · obtain rfl | h := List.mem_cons.1 h
      · exact .inr List.mem_cons_self
      · exact (ih h).imp_right (List.mem_cons_of_mem _)

theorem proper_insert (hms : (object ms).Proper) (hv : value.Proper) :
    (object (ms.insert name value)).Proper := by
  obtain ⟨hnames, hvalues⟩ := proper_object.1 hms
  refine proper_object.2 ⟨?_, fun m hm => ?_⟩
  · have hinsert : (ms.insert name value).map (·.1) =
        if name ∈ ms.map (·.1) then ms.map (·.1) else ms.map (·.1) ++ [name] :=
      names_insert name value ms
    rw [hinsert]
    split
    · exact hnames
    · next hn => exact List.nodup_append_comm.2 (List.nodup_cons.2 ⟨hn, hnames⟩)
  · obtain rfl | hm := eq_or_mem_of_mem_insert hm
    · exact hv
    · exact hvalues m hm

/-- The members that are left stand in another order, and nothing else changes. -/
theorem swapRemove_perm : ∃ removed, (ms.swapRemove name ++ removed).Perm ms := by
  have hms : ms.takeWhile (·.1 != name) ++ ms.dropWhile (·.1 != name) = ms :=
    List.takeWhile_append_dropWhile
  rw [swapRemove.eq_def, List.span_eq_takeWhile_dropWhile]
  split
  · next before m after h =>
    obtain ⟨rfl, hafter⟩ := Prod.mk.inj h
    rw [hafter] at hms
    refine ⟨[m], ?_⟩
    split
    · next last hlast =>
      obtain ⟨init, rfl⟩ := List.getLast?_eq_some_iff.1 hlast
      have hswap : ((last :: init) ++ [m]).Perm (m :: (init ++ [last])) :=
        (List.perm_append_singleton m (last :: init)).trans
          ((List.perm_append_singleton last init).symm.cons m)
      rw [List.dropLast_concat, List.append_assoc]
      exact (hswap.append_left _).trans (.of_eq hms)
    · next hlast =>
      rw [List.getLast?_eq_none_iff.1 hlast] at hms
      rw [hms]
  · next before h =>
    obtain ⟨rfl, hafter⟩ := Prod.mk.inj h
    rw [hafter] at hms
    exact ⟨[], by rw [hms]⟩

theorem proper_swapRemove (h : (object ms).Proper) : (object (ms.swapRemove name)).Proper := by
  obtain ⟨hnames, hvalues⟩ := proper_object.1 h
  obtain ⟨removed, hperm⟩ : ∃ removed, (ms.swapRemove name ++ removed).Perm ms := swapRemove_perm
  have hnodup : ((ms.swapRemove name ++ removed).map (·.1)).Nodup :=
    (hperm.map _).nodup_iff.2 hnames
  rw [List.map_append] at hnodup
  exact proper_object.2 ⟨(List.nodup_append.1 hnodup).1, fun m hm =>
    hvalues m (hperm.subset (List.mem_append_left _ hm))⟩

theorem proper_get? (h : (object ms).Proper) {v : Json} (hv : ms.get? name = some v) :
    v.Proper := by
  obtain ⟨before, after, hms, -⟩ := List.lookup_eq_some_iff.1 hv
  refine (proper_object.1 h).2 (name, v) ?_
  rw [hms]
  exact List.mem_append_right _ List.mem_cons_self

end Json.Members

namespace Xml

/-! ## Texts -/

theorem bounds_of_number? {t : Text} {i : Int} (h : number? t = some (.whole i)) :
    -0x8000000000000000 ≤ i ∧ i < 0x8000000000000000 := by
  rw [number?, Option.ite_none_right_eq_some] at h
  obtain ⟨-, h⟩ := h
  split at h
  · next j hj =>
    cases h
    obtain ⟨-, hfits⟩ := Option.filter_eq_some_iff.1 hj
    exact of_decide_eq_true hfits
  · cases hf : float? t <;> rw [hf] at h <;> cases h

/-- The value of a text is proper: a whole number has been found to fit. -/
theorem proper_coerce (t : Text) : (coerce t).Proper := by
  unfold coerce
  split
  · exact Json.proper_of_parts rfl nofun nofun
  split
  · exact Json.proper_of_parts rfl nofun nofun
  split
  · exact Json.proper_of_parts rfl nofun nofun
  split
  · next n hn =>
    refine Json.proper_of_parts rfl nofun fun i hi => ?_
    cases hi
    obtain ⟨hlow, hhigh⟩ := bounds_of_number? hn
    exact ⟨hlow, Int.le_trans (Int.le_of_lt hhigh) (by decide)⟩
  · exact Json.proper_of_parts rfl nofun nofun

/-! ## Elements -/

variable {name : Text} {v : Json} {ms : Json.Members}

theorem proper_accumulate (hms : (Json.object ms).Proper) (hv : v.Proper) :
    (Json.object (accumulate name v ms)).Proper := by
  unfold accumulate
  split
  · exact Json.Members.proper_insert hms hv
  · next items hitems =>
    have h := Json.proper_array.1 (Json.Members.proper_get? hms hitems)
    refine Json.Members.proper_insert hms (Json.proper_array.2 ?_)
    rw [List.forall_mem_append, List.forall_mem_singleton]
    exact ⟨h, hv⟩
  · next first _ hfirst =>
    refine Json.Members.proper_insert hms (Json.proper_array.2 ?_)
    rw [List.forall_mem_cons, List.forall_mem_singleton]
    exact ⟨Json.Members.proper_get? hms hfirst, hv⟩

theorem proper_elementValue (hms : (Json.object ms).Proper) : (elementValue ms).Proper := by
  unfold elementValue
  split
  · exact Json.proper_of_parts rfl nofun nofun
  · split
    · exact (Json.proper_object.1 hms).2 _ List.mem_cons_self
    · exact hms
  · exact hms

theorem proper_nil : (Json.object []).Proper := Json.proper_object.2 ⟨List.nodup_nil, nofun⟩

theorem proper_ofAttributes (attributes : List (Text × Text)) :
    (Json.object (ofAttributes attributes)).Proper := by
  refine List.foldlRecOn attributes _ (motive := fun ms => (Json.object ms).Proper) proper_nil
    fun ms hms a _ => ?_
  exact proper_accumulate hms (proper_coerce a.2)

/-! ## Runs -/

namespace Builder

/-- What the reader holds is proper: the members of the document and of each open element. -/
structure Proper (b : Builder) : Prop where
  root : (Json.object b.root).Proper
  opened : ∀ e ∈ b.opened, (Json.object e.members).Proper

variable {b b' : Builder}

theorem proper_add (hb : b.Proper) (name : Text) (hv : v.Proper) : (b.add name v).Proper := by
  obtain ⟨root, opened⟩ := b
  cases opened with
  | nil => exact ⟨proper_accumulate hb.root hv, nofun⟩
  | cons e es =>
    obtain ⟨he, hes⟩ := List.forall_mem_cons.1 hb.opened
    exact ⟨hb.root, List.forall_mem_cons.2 ⟨proper_accumulate he hv, hes⟩⟩

/-- **Each piece keeps what the reader holds proper.** -/
theorem proper_step (hb : b.Proper) {m : Markup} (h : b.step m = some b') : b'.Proper := by
  cases m with
  | opening name attributes =>
    cases h
    exact ⟨hb.root, List.forall_mem_cons.2 ⟨proper_ofAttributes attributes, hb.opened⟩⟩
  | empty name attributes =>
    cases h
    exact proper_add hb name (proper_elementValue (proper_ofAttributes attributes))
  | closing name =>
    obtain ⟨root, opened⟩ := b
    cases opened with
    | nil => cases h
    | cons e es =>
      rw [step, Option.ite_none_right_eq_some] at h
      obtain ⟨-, h⟩ := h
      cases h
      obtain ⟨he, hes⟩ := List.forall_mem_cons.1 hb.opened
      have hrest : Proper ⟨root, es⟩ := ⟨hb.root, hes⟩
      exact proper_add hrest e.name (proper_elementValue he)
  | text t =>
    cases h
    exact proper_add hb contentKey (proper_coerce t)
  | unparsed t =>
    cases h
    exact proper_add hb contentKey (Json.proper_of_parts rfl nofun nofun)
  | aside =>
    cases h
    exact hb

theorem proper_run {pieces : List Markup} (hb : b.Proper) (h : pieces.foldlM step b = some b') :
    b'.Proper := by
  induction pieces generalizing b with
  | nil =>
    cases h
    exact hb
  | cons m pieces ih =>
    rw [List.foldlM_cons] at h
    obtain ⟨c, hc, h⟩ := Option.bind_eq_some_iff.1 h
    exact ih (proper_step hb hc) h

end Builder

/-- **A document that is read is a proper object.** -/
theorem proper_of_read {t : Text} {v : Json} (h : read t = .ok v) :
    v.Proper ∧ ∃ ms, v = .object ms := by
  rw [read] at h
  split at h
  · next b hb =>
    obtain ⟨pieces, -, hrun⟩ := Option.bind_eq_some_iff.1 hb
    have hproper : b.Proper := Builder.proper_run ⟨proper_nil, List.forall_mem_nil _⟩ hrun
    rw [Builder.finish] at h
    split at h
    · cases h
      exact ⟨Json.Members.proper_swapRemove hproper.root, _, rfl⟩
    · cases h
  · cases h

end Xml

end SessionGateway
