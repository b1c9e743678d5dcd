/-
  Cutting and trimming — where the first occurrence of a sequence stands, and what has bare ends.

  The first occurrence is the one before whose last element the sequence does not occur.  A mark
  (`c :: mark`) whose first element does not recur in it never overlaps another occurrence of
  itself, so it is found where it was put, if it does not stand in what was put before.

  * `cutAt?_eq_some_iff`: the parts before and after the first occurrence;
  * `cutAt?_append_mark`, `cutAt?_append_last`: a sequence is cut at the mark behind it, or at a
    needle behind it whose last element is its own;
  * `cutAt?_append_cons`, `occursIn_append_cons`: an element that the needle does not have keeps
    occurrences apart;
  * `cut?_eq_some_iff`, `dropEnd?_eq_some_iff`: the same for one element, and for what stands last;
  * `infix_trimBy_iff`: what is trimmed takes no occurrence with it;
  * `infix_of_twice`: of two marks in a row, the first is the one that is cut off, or both stand
    behind it;
  * `trimBy_of_ends`: a sequence without elements to trim at its ends stays as it is, such as one
    that has been trimmed (`trimBy_trimBy`), also with such elements around it
    (`trimBy_append_append`).
-/
import Mathlib.Data.List.TakeWhile
import SessionGateway.Text.Basic

namespace SessionGateway

variable {α : Type} [DecidableEq α] {c d : α} {needle mark xs ys before after : List α}

/-! ## Ends -/

section
omit [DecidableEq α]
variable {p : α → Bool}

theorem dropWhile_of_head? (hhead : xs.head?.all (!p ·) = true) : xs.dropWhile p = xs := by
  cases xs with
  | nil => rfl
  | cons x xs =>
    rw [List.head?_cons, Option.all_some, Bool.not_eq_true'] at hhead
    rw [List.dropWhile_cons, hhead]
    rfl

theorem head?_dropWhile : (xs.dropWhile p).head?.all (!p ·) = true := by
  have h := List.head?_dropWhile_not p xs
  cases hd : (xs.dropWhile p).head? with
  | none => rfl
  | some x =>
    rw [hd] at h
    simpa using h

/-- Elements of a class end in front of one that is not of the class, or with the sequence. -/
theorem span_append (hx : ∀ x ∈ xs, p x = true) (hy : ys.head?.all (!p ·) = true) :
    (xs ++ ys).takeWhile p = xs ∧ (xs ++ ys).dropWhile p = ys := by
  have htake : ys.takeWhile p = [] := by
    cases ys with
    | nil => rfl
    | cons y ys =>
      have hp : p y = false := by simpa using hy
      simp [hp]
  rw [List.takeWhile_append_of_pos hx, List.dropWhile_append_of_pos hx, htake,
    dropWhile_of_head? hy, List.append_nil]
  exact ⟨rfl, rfl⟩

/-- A sequence without an element to trim at its end keeps its end. -/
theorem trimEndBy_of_last (hlast : xs.getLast?.all (!p ·) = true) : trimEndBy p xs = xs := by
  have hback : xs.reverse.head?.all (!p ·) = true := by rwa [List.head?_reverse]
  rw [trimEndBy, dropWhile_of_head? hback, List.reverse_reverse]

/-- Elements to trim behind a sequence make no difference to what is left of it. -/
theorem trimEndBy_append (hafter : ∀ x ∈ after, p x = true) :
    trimEndBy p (xs ++ after) = trimEndBy p xs := by
  rw [trimEndBy, List.reverse_append, List.dropWhile_append_of_pos fun x hx =>
    hafter x (List.mem_reverse.1 hx), ← trimEndBy]

/-- What is trimmed at the end of a sequence are elements of the class, up to one that is none. -/
theorem exists_trimEndBy_append (p : α → Bool) (xs : List α) :
    (trimEndBy p xs).getLast?.all (!p ·) = true ∧
      ∃ after, xs = trimEndBy p xs ++ after ∧ ∀ x ∈ after, p x = true := by
  refine ⟨?_, (xs.reverse.takeWhile p).reverse, ?_, fun x hx => ?_⟩
  · rw [trimEndBy, List.getLast?_reverse]
    exact head?_dropWhile
  · rw [trimEndBy, ← List.reverse_append, List.takeWhile_append_dropWhile, List.reverse_reverse]
  · exact List.all_eq_true.1 List.all_takeWhile x (List.mem_reverse.1 hx)

/-- A sequence without elements to trim at its ends stays as it is. -/
theorem trimBy_of_ends (hhead : xs.head?.all (!p ·) = true)
    (hlast : xs.getLast?.all (!p ·) = true) : trimBy p xs = xs := by
  rw [trimBy, dropWhile_of_head? hhead]
  exact trimEndBy_of_last hlast

/-- Elements to trim around a sequence make no difference to what is left of it. -/
theorem trimBy_append_append (hbefore : before.all p = true) (hafter : after.all p = true) :
    trimBy p (before ++ (xs ++ after)) = trimBy p xs := by
  rw [List.all_eq_true] at hbefore hafter
  have hnone : after.dropWhile p = [] := by
    rw [← List.append_nil after, List.dropWhile_append_of_pos hafter]
    rfl
  rw [trimBy, trimBy, List.dropWhile_append_of_pos hbefore, List.dropWhile_append]
  split
  · next hempty => rw [hnone, List.isEmpty_iff.1 hempty]
  · rw [List.reverse_append, List.dropWhile_append_of_pos fun x hx =>
      hafter x (List.mem_reverse.1 hx)]

/-- What has been trimmed has nothing left to trim. -/
theorem trimBy_trimBy : trimBy p (trimBy p xs) = trimBy p xs := by
  refine trimBy_of_ends ?_ ?_
  · have hprefix : trimBy p xs <+: xs.dropWhile p := by
      rw [← List.reverse_suffix, trimBy, List.reverse_reverse]
      exact List.dropWhile_suffix p
    cases ht : trimBy p xs with
    | nil => rfl
    | cons x t =>
      obtain ⟨u, hu⟩ := ht ▸ hprefix
      have hx : (xs.dropWhile p).head?.all (!p ·) = true := head?_dropWhile
      rw [← hu] at hx
      exact hx
  · rw [trimBy, List.getLast?_reverse]
    exact head?_dropWhile

/-- Nothing is left of a sequence exactly if all its elements are to be trimmed. -/
theorem trimBy_eq_nil_iff : trimBy p xs = [] ↔ ∀ x ∈ xs, p x = true := by
  rw [trimBy, List.reverse_eq_nil_iff, List.dropWhile_eq_nil_iff]
  constructor
  · intro h x hx
    rw [← List.takeWhile_append_dropWhile (p := p) (l := xs), List.mem_append] at hx
    rcases hx with hx | hx
    · exact List.all_eq_true.1 List.all_takeWhile x hx
    · exact h x (List.mem_reverse.2 hx)
  · exact fun h x hx => h x ((List.dropWhile_suffix p).subset (List.mem_reverse.1 hx))

/-- A change of the elements that keeps the class commutes with trimming. -/
theorem trimBy_map {f : α → α} (hf : p ∘ f = p) : trimBy p (xs.map f) = (trimBy p xs).map f := by
  simp only [trimBy, List.dropWhile_map, hf, ← List.map_reverse]

end

/-! ## Occurrences -/

/-- **A sequence is cut at the first occurrence of an element**: it does not stand before there. -/
theorem cut?_eq_some_iff :
    cut? c xs = some (before, after) ↔ xs = before ++ c :: after ∧ c ∉ before :=
  ⟨cut?_eq_some, fun ⟨he, hn⟩ => he ▸ cut?_append_cons hn after⟩

theorem dropEnd?_eq_some_iff : dropEnd? needle xs = some before ↔ xs = before ++ needle := by
  rw [dropEnd?, Option.map_eq_some_iff]
  constructor
  · rintro ⟨u, hu, rfl⟩
    rw [← List.reverse_reverse xs, dropStart?_eq_some_iff.1 hu, List.reverse_append,
      List.reverse_reverse]
  · rintro rfl
    refine ⟨before.reverse, dropStart?_eq_some_iff.2 ?_, List.reverse_reverse before⟩
    rw [List.reverse_append]

theorem dropEnd?_eq_none_iff : dropEnd? needle xs = none ↔ ¬ needle <:+ xs := by
  rw [Option.eq_none_iff_forall_not_mem, ← not_exists]
  refine not_congr (exists_congr fun before => ?_)
  rw [Option.mem_def, dropEnd?_eq_some_iff, eq_comm]

theorem dropStart?_eq_none_iff {start xs : List α} :
    dropStart? start xs = none ↔ ¬ start <+: xs := by
  constructor
  · rintro h ⟨rest, he⟩
    rw [dropStart?_eq_some_iff.2 he.symm] at h
    cases h
  · intro h
    cases hd : dropStart? start xs with
    | none => rfl
    | some rest => exact absurd ⟨rest, (dropStart?_eq_some_iff.1 hd).symm⟩ h

omit [DecidableEq α] in
/-- What occurs in a sequence without its last element is shorter than the sequence. -/
theorem not_infix_dropLast (hn : needle ≠ []) : ¬ needle <:+: needle.dropLast := by
  intro h
  have hlength := h.length_le
  have hpos := List.length_pos_iff.2 hn
  rw [List.length_dropLast] at hlength
  omega

omit [DecidableEq α] in
/-- What is cut off begins with what stands before it and all but its last element. -/
theorem isPrefix_append_dropLast (before needle after : List α) :
    before ++ needle.dropLast <+: before ++ needle ++ after := by
  rw [List.append_assoc]
  exact (List.prefix_append_right_inj _).2
    ((List.dropLast_prefix needle).trans (List.prefix_append _ _))

/-- **The first occurrence of a sequence**: it does not occur before its last element there. -/
theorem cutAt?_eq_some_iff (hn : needle ≠ []) :
    cutAt? needle xs = some (before, after) ↔
      xs = before ++ needle ++ after ∧ ¬ needle <:+: before ++ needle.dropLast := by
  induction xs generalizing before with
  | nil => simp [cutAt?, hn]
  | cons x xs ih =>
    rw [cutAt?]
    cases hd : dropStart? needle (x :: xs) with
    | some rest =>
      have hxs := dropStart?_eq_some_iff.1 hd
      constructor
      · intro h
        cases h
        exact ⟨hxs, not_infix_dropLast hn⟩
      · rintro ⟨he, hfirst⟩
        cases before with
        | nil =>
          rw [List.nil_append, hxs] at he
          rw [List.append_cancel_left he]
        | cons y before =>
          -- both begin the text, and the needle is not the longer one
          have hprefix : y :: before ++ needle.dropLast <+: x :: xs :=
            he ▸ isPrefix_append_dropLast (y :: before) needle after
          refine absurd (List.prefix_of_prefix_length_le ⟨rest, hxs.symm⟩ hprefix ?_).isInfix hfirst
          rw [List.length_append, List.length_dropLast, List.length_cons]
          omega
    | none =>
      have hnot := dropStart?_eq_none_iff.1 hd
      simp only [Option.map_eq_some_iff, Prod.exists, Prod.mk.injEq]
      constructor
      · rintro ⟨before', after', h, rfl, rfl⟩
        obtain ⟨rfl, hfirst⟩ := ih.1 h
        refine ⟨rfl, fun hi => ?_⟩
        rcases List.infix_cons_iff.1 hi with hp | hi
        · exact hnot (hp.trans (isPrefix_append_dropLast (x :: before') needle after'))
        · exact hfirst hi
      · rintro ⟨he, hfirst⟩
        cases before with
        | nil => exact absurd ⟨after, he.symm⟩ hnot
        | cons y before' =>
          obtain ⟨rfl, hxs⟩ := List.cons.inj he
          exact ⟨before', after, ih.2 ⟨hxs, fun hi => hfirst (List.infix_cons_iff.2 (.inr hi))⟩,
            rfl, rfl⟩

theorem cutAt?_eq_none_iff (hn : needle ≠ []) : cutAt? needle xs = none ↔ ¬ needle <:+: xs := by
  induction xs with
  | nil => simp [cutAt?, hn]
  | cons x xs ih =>
    rw [cutAt?, List.infix_cons_iff, not_or]
    cases h : dropStart? needle (x :: xs) with
    | some rest =>
      exact iff_of_false (Option.some_ne_none _) fun hp =>
        hp.1 ⟨rest, (dropStart?_eq_some_iff.1 h).symm⟩
    | none =>
      rw [Option.map_eq_none_iff, ih]
      exact (and_iff_right (dropStart?_eq_none_iff.1 h)).symm

theorem cutAt?_self_append (needle xs : List α) :
    cutAt? needle (needle ++ xs) = some ([], xs) := by
  cases needle with
  | nil => cases xs <;> rfl
  | cons c mark =>
    rw [List.cons_append, cutAt?, ← List.cons_append, dropStart?_self_append]

theorem cutAt?_of_prefix (h : needle <+: xs) : ∃ after, cutAt? needle xs = some ([], after) := by
  obtain ⟨after, rfl⟩ := h
  exact ⟨after, cutAt?_self_append needle after⟩

/-- What is cut apart has the elements of the whole. -/
theorem forall_mem_of_cutAt? {P : α → Prop} (h : cutAt? needle xs = some (before, after))
    (hxs : ∀ x ∈ xs, P x) : (∀ x ∈ before, P x) ∧ ∀ x ∈ after, P x := by
  rw [cutAt?_eq_some h, List.forall_mem_append, List.forall_mem_append] at hxs
  exact ⟨hxs.1.1, hxs.2⟩

/-- A sequence occurs if it is what stands between two others. -/
theorem occursIn_eq_true_iff (hn : needle ≠ []) : occursIn needle xs = true ↔ needle <:+: xs := by
  rw [occursIn, Option.isSome_iff_ne_none, ne_eq, cutAt?_eq_none_iff hn, Classical.not_not]

theorem occursIn_eq_false_iff (hn : needle ≠ []) :
    occursIn needle xs = false ↔ ¬ needle <:+: xs := by
  rw [← occursIn_eq_true_iff hn, Bool.not_eq_true]

section
omit [DecidableEq α]
variable {p : α → Bool} (hn : needle ≠ []) (hp : ∀ x ∈ needle, p x = false)
include hn hp

/-- Elements that a sequence does not have are dropped without loss of an occurrence. -/
theorem infix_dropWhile_iff : needle <:+: xs.dropWhile p ↔ needle <:+: xs := by
  induction xs with
  | nil => rfl
  | cons x xs ih =>
    rw [List.dropWhile_cons]
    split
    · next hx =>
      have hstart : ¬ needle <+: x :: xs := by
        intro hprefix
        obtain ⟨y, needle', rfl⟩ := List.exists_cons_of_ne_nil hn
        obtain ⟨rfl, -⟩ := List.cons_prefix_cons.1 hprefix
        rw [hp y List.mem_cons_self] at hx
        cases hx
      rw [ih, List.infix_cons_iff, or_iff_right hstart]
    · rfl

/-- So are they trimmed. -/
theorem infix_trimBy_iff : needle <:+: trimBy p xs ↔ needle <:+: xs := by
  have hn' : needle.reverse ≠ [] := fun h => hn (List.reverse_eq_nil_iff.1 h)
  have hp' : ∀ x ∈ needle.reverse, p x = false := fun x hx => hp x (List.mem_reverse.1 hx)
  rw [trimBy, ← List.reverse_infix, List.reverse_reverse, infix_dropWhile_iff hn' hp',
    List.reverse_infix, infix_dropWhile_iff hn hp]

end

/-! ## What is put behind -/

/-- What follows changes nothing of the first occurrence. -/
theorem cutAt?_append_of_some (hn : needle ≠ []) (h : cutAt? needle xs = some (before, after))
    (ys : List α) : cutAt? needle (xs ++ ys) = some (before, after ++ ys) := by
  obtain ⟨rfl, hfirst⟩ := (cutAt?_eq_some_iff hn).1 h
  exact (cutAt?_eq_some_iff hn).2 ⟨by rw [List.append_assoc _ after], hfirst⟩

omit [DecidableEq α] in
/-- Where a sequence with another one behind it begins, it begins in the first one, or has elements
    of both. -/
theorem prefix_append_cases (h : needle <+: xs ++ ys) :
    needle <+: xs ∨ ∃ u, u ≠ [] ∧ needle = xs ++ u ∧ u <+: ys := by
  obtain ⟨rest, he⟩ := h
  rcases List.append_eq_append_iff.1 he with ⟨u, rfl, rfl⟩ | ⟨u, rfl, rfl⟩
  · exact .inl ⟨u, rfl⟩
  · cases u with
    | nil =>
      rw [List.append_nil]
      exact .inl List.prefix_rfl
    | cons y u => exact .inr ⟨y :: u, List.cons_ne_nil _ _, rfl, ⟨rest, rfl⟩⟩

/-- **An element that the needle does not have** keeps its occurrences apart. -/
theorem cutAt?_append_cons (hd : d ∉ needle) (hx : ¬ needle <:+: xs) (ys : List α) :
    cutAt? needle (xs ++ d :: ys) =
      (cutAt? needle ys).map fun (before, after) => (xs ++ d :: before, after) := by
  have hnone : ∀ zs, ¬ needle <+: zs → ¬ needle <+: zs ++ d :: ys := by
    intro zs hz hp
    rcases prefix_append_cases hp with hp | ⟨u, hu, rfl, v, he⟩
    · exact hz hp
    · cases u with
      | nil => exact hu rfl
      | cons e u =>
        obtain ⟨rfl, -⟩ := List.cons.inj he
        exact hd (List.mem_append_right _ List.mem_cons_self)
  induction xs with
  | nil =>
    have hn := hnone [] fun hp => hx hp.isInfix
    rw [List.nil_append] at hn ⊢
    rw [cutAt?, dropStart?_eq_none_iff.2 hn]
    rfl
  | cons x xs ih =>
    rw [List.infix_cons_iff, not_or] at hx
    have hn := hnone (x :: xs) hx.1
    rw [List.cons_append] at hn
    rw [List.cons_append, cutAt?, dropStart?_eq_none_iff.2 hn, ih hx.2]
    simp only [Option.map_map]
    rfl

/-- So a sequence with such an element in it has the occurrences of its two parts. -/
theorem occursIn_append_cons (hd : d ∉ needle) (hn : needle ≠ []) (xs ys : List α) :
    occursIn needle (xs ++ d :: ys) = (occursIn needle xs || occursIn needle ys) := by
  by_cases hx : needle <:+: xs
  · have hall : needle <:+: xs ++ d :: ys := hx.trans (List.prefix_append _ _).isInfix
    rw [(occursIn_eq_true_iff hn).2 hall, (occursIn_eq_true_iff hn).2 hx, Bool.true_or]
  · rw [(occursIn_eq_false_iff hn).2 hx, Bool.false_or, occursIn, occursIn,
      cutAt?_append_cons hd hx, Option.isSome_map]

/-- No occurrence begins in a sequence that does not have the first element of the needle. -/
theorem cutAt?_append_of_not_mem (hc : c ∉ xs) (mark ys : List α) :
    cutAt? (c :: mark) (xs ++ ys) =
      (cutAt? (c :: mark) ys).map fun (before, after) => (xs ++ before, after) := by
  induction xs with
  | nil => exact Option.map_id'.symm
  | cons x xs ih =>
    rw [List.mem_cons, not_or] at hc
    have hn : ¬ c :: mark <+: x :: (xs ++ ys) := fun hp => hc.1 (List.cons_prefix_cons.1 hp).1
    rw [List.cons_append, cutAt?, dropStart?_eq_none_iff.2 hn, ih hc.2]
    simp only [Option.map_map]
    rfl

/-! ## Marks -/

omit [DecidableEq α] in
/-- A mark that begins in a sequence, with another mark behind it, ends in the sequence. -/
theorem prefix_of_prefix_append_mark (hc : c ∉ mark) (hx : xs ≠ [])
    (h : c :: mark <+: xs ++ c :: ys) : c :: mark <+: xs := by
  rcases prefix_append_cases h with h | ⟨u, hu, he, v, hv⟩
  · exact h
  · cases xs with
    | nil => exact absurd rfl hx
    | cons x xs =>
      cases u with
      | nil => exact absurd rfl hu
      | cons e u =>
        obtain ⟨rfl, -⟩ := List.cons.inj hv
        obtain ⟨-, rfl⟩ := List.cons.inj he
        exact absurd (List.mem_append_right _ List.mem_cons_self) hc

/-- **A sequence is cut at the mark behind it**, if the mark does not occur in the sequence. -/
theorem cutAt?_append_mark (hc : c ∉ mark) (hx : ¬ c :: mark <:+: xs) (ys : List α) :
    cutAt? (c :: mark) (xs ++ (c :: mark) ++ ys) = some (xs, ys) := by
  induction xs with
  | nil => exact cutAt?_self_append (c :: mark) ys
  | cons x xs ih =>
    rw [List.infix_cons_iff, not_or] at hx
    have hn : ¬ c :: mark <+: x :: xs ++ (c :: mark) ++ ys := by
      rw [List.append_assoc, List.cons_append]
      exact fun hp => hx.1 (prefix_of_prefix_append_mark hc (List.cons_ne_nil _ _) hp)
    rw [List.cons_append, List.cons_append] at hn ⊢
    rw [cutAt?, dropStart?_eq_none_iff.2 hn, ih hx.2]
    rfl

/-- **A sequence is cut at a needle behind it** that ends with an element of its own, if the needle
    does not occur in the sequence. -/
theorem cutAt?_append_last (hd : d ∉ mark) (hx : ¬ mark ++ [d] <:+: xs) (ys : List α) :
    cutAt? (mark ++ [d]) (xs ++ (mark ++ [d]) ++ ys) = some (xs, ys) := by
  refine (cutAt?_eq_some_iff (by simp)).2 ⟨rfl, ?_⟩
  rw [List.dropLast_concat]
  rintro ⟨u, v, he⟩
  refine hx ?_
  rcases List.append_eq_append_iff.1 he with ⟨w, rfl, -⟩ | ⟨w, hw, rfl⟩
  · exact ⟨u, w, rfl⟩
  · rcases List.eq_nil_or_concat w with rfl | ⟨w, e, rfl⟩
    · exact ⟨u, [], by rw [List.append_nil, hw, List.append_nil]⟩
    · -- the occurrence would end behind the sequence, but its last element does not stand there
      have hlast := congrArg List.getLast? hw
      obtain rfl : d = e := by simpa [List.getLast?_append, List.getLast?_cons] using hlast
      exact absurd (by simp) hd

/-- **Of two marks in a row**, the first is the one that is cut off, or both stand behind it. -/
theorem infix_of_twice (hc : c ∉ mark) (h : cutAt? (c :: mark) xs = some (before, after))
    (ht : (c :: mark) ++ (c :: mark) <:+: xs) :
    c :: mark <+: after ∨ (c :: mark) ++ (c :: mark) <:+: after := by
  obtain ⟨hxs, hfirst⟩ := (cutAt?_eq_some_iff (List.cons_ne_nil c mark)).1 h
  obtain ⟨u, v, ht⟩ := ht
  have he : before ++ ((c :: mark) ++ after) = u ++ ((c :: mark) ++ ((c :: mark) ++ v)) := by
    rw [← List.append_assoc, ← hxs, ← ht]
    simp only [List.append_assoc]
  rcases List.append_eq_append_iff.1 he with ⟨w, rfl, hw⟩ | ⟨w, rfl, hw⟩
  · rcases List.append_eq_append_iff.1 hw with ⟨z, rfl, hz⟩ | ⟨z, hz, hz'⟩
    · exact .inr ⟨z, v, by rw [hz]; simp only [List.append_assoc]⟩
    · -- the two marks overlap the first one, or stand right behind what is before it
      cases w with
      | nil =>
        rw [List.nil_append] at hz
        rw [← hz] at hz'
        exact .inl ⟨v, List.append_cancel_left hz'⟩
      | cons d w =>
        obtain ⟨rfl, rfl⟩ := List.cons.inj hz
        cases z with
        | nil => exact .inr ⟨[], v, by rw [List.nil_append] at hz' ⊢; rw [← hz', List.append_assoc]⟩
        | cons e z =>
          obtain ⟨rfl, -⟩ := List.cons.inj hz'
          exact absurd (List.mem_append_right _ List.mem_cons_self) hc
  · -- a mark that begins earlier would be the first one
    cases w with
    | nil => exact .inl ⟨v, List.append_cancel_left hw⟩
    | cons d w =>
      have hshort : c :: mark <+: d :: w ++ (c :: mark).dropLast := by
        refine List.prefix_of_prefix_length_le ⟨_, hw⟩ ?_ ?_
        · rw [← List.append_assoc]
          exact isPrefix_append_dropLast (d :: w) (c :: mark) after
        · simp only [List.length_append, List.length_dropLast, List.length_cons]
          omega
      refine absurd ?_ hfirst
      rw [List.append_assoc]
      exact hshort.isInfix.trans (List.suffix_append u _).isInfix

end SessionGateway
