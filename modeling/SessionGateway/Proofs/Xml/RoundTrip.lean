/-
  Round trip — values that are read back from the markup that they write.

  Markup has no arrays, numbers or empty objects of its own: members of one name gather in an
  array, a text is taken for the scalar that it looks like, and an element with nothing but
  text is the value of its text.  The class `isElement` of values under a name, and the class
  `isDocument` of whole values, leave out what would be read as something else.

  * `reads_element`, `reads_body`: what such a value writes is read as the value, by recursion
    along the writer;
  * `foldl_gather`: members of distinct names stand in their order again;
  * `read_write`: a document is read back as it was.
-/
import Mathlib.Data.List.TakeDrop
import Mathlib.Data.List.TakeWhile
import SessionGateway.Proofs.Xml.Reading

namespace SessionGateway.Xml

/-! ## Values that survive -/

mutual

/-- Whether a value under a name is read back: a scalar, or an object with a member besides its
    text. -/
def isElement : Json → Bool
  | .object ms => ms.any (·.1 != contentKey) && decide (ms.map (·.1)).Nodup && areMembers ms
  | .array _ => false
  | .null => true
  | .bool _ => true
  | .number n => isScalar (.number n)
  | .string t => isScalar (.string t)

/-- Whether every item of an array is read back. -/
def areElements : List Json → Bool
  | [] => true
  | v :: items => isElement v && areElements items

/-- Whether every member of an object is read back: a name with a value or with an array of at
    least two, and `content` with a scalar that has a text. -/
def areMembers : List (Text × Json) → Bool
  | [] => true
  | (name, .array items) :: ms =>
    isName name && name != contentKey && decide (2 ≤ items.length) && areElements items &&
      areMembers ms
  | (name, v) :: ms =>
    (if name = contentKey then isScalar v && !v.plain.isEmpty else isName name && isElement v) &&
      areMembers ms

end

/-- Whether a value is read back as a document: an object without text of its own. -/
def isDocument : Json → Bool
  | .object ms =>
    decide (contentKey ∉ ms.map (·.1)) && decide (ms.map (·.1)).Nodup && areMembers ms
  | _ => false

/-! ## Members in order -/

/-- The members with the value of one more member, or the items of its array, under its name. -/
def gather (acc : Json.Members) : Text × Json → Json.Members
  | (name, .array items) => items.foldl (fun acc v => accumulate name v acc) acc
  | (name, v) => accumulate name v acc

section
variable {name : Text} {acc : Json.Members} (hn : name ∉ acc.map (·.1))
include hn

theorem get?_eq_none : Json.Members.get? name acc = none := by
  rw [Json.Members.get?, List.lookup_eq_none_iff]
  exact fun m hm => bne_iff_ne.2 fun he => hn (List.mem_map.2 ⟨m, hm, he.symm⟩)

/-- Nothing moves when the removed name is absent. -/
theorem swapRemove_eq_self : Json.Members.swapRemove name acc = acc := by
  have hp : ∀ m ∈ acc, (m.1 != name) = true := fun m hm =>
    bne_iff_ne.2 fun he => hn (he ▸ List.mem_map_of_mem hm)
  rw [Json.Members.swapRemove, List.span_eq_takeWhile_dropWhile, List.takeWhile_eq_self_iff.2 hp,
    List.dropWhile_eq_nil_iff.2 hp]

theorem get?_append_singleton (v : Json) :
    Json.Members.get? name (acc ++ [(name, v)]) = some v := by
  rw [Json.Members.get?, List.lookup_append, ← Json.Members.get?, get?_eq_none hn, Option.none_or,
    List.lookup_cons_self]

/-- The first value of a name is a member of its own. -/
theorem accumulate_new (v : Json) : accumulate name v acc = acc ++ [(name, v)] := by
  rw [accumulate, get?_eq_none hn]
  exact Json.Members.insert_of_notMem hn v

/-- The second value makes an array with the first one. -/
theorem accumulate_second {v : Json} (hv : isElement v = true) (w : Json) :
    accumulate name w (acc ++ [(name, v)]) = acc ++ [(name, .array [v, w])] := by
  rw [accumulate, get?_append_singleton hn]
  have hi := fun u => Json.Members.insert_append hn u [(name, v)]
  simp only [Json.Members.insert, if_true] at hi
  cases v with
  | array items => cases hv
  | _ => exact hi _

/-- Every later value goes to the array. -/
theorem accumulate_later (items : List Json) (v : Json) :
    accumulate name v (acc ++ [(name, .array items)]) = acc ++ [(name, .array (items ++ [v]))] := by
  rw [accumulate, get?_append_singleton hn]
  have hi := fun u => Json.Members.insert_append hn u [(name, .array items)]
  simp only [Json.Members.insert, if_true] at hi
  exact hi _

theorem foldl_accumulate_later (items more : List Json) :
    more.foldl (fun acc v => accumulate name v acc) (acc ++ [(name, .array items)]) =
      acc ++ [(name, .array (items ++ more))] := by
  induction more generalizing items with
  | nil => simp
  | cons v more ih => rw [List.foldl_cons, accumulate_later hn, ih]; simp

/-- The values of a new name gather in an array. -/
theorem foldl_accumulate {items : List Json} (h : areElements items = true)
    (hl : 2 ≤ items.length) :
    items.foldl (fun acc v => accumulate name v acc) acc = acc ++ [(name, .array items)] := by
  match items with
  | [] | [_] => simp at hl
  | v :: w :: more =>
    have hv : isElement v = true := (Bool.and_eq_true_iff.1 h).1
    rw [List.foldl_cons, List.foldl_cons, accumulate_new hn, accumulate_second hn hv,
      foldl_accumulate_later hn]
    rfl

end

/-- A value that is no array. -/
def isSingle : Json → Bool
  | .array _ => false
  | _ => true

section
variable {v : Json} (hv : isSingle v = true)
include hv

theorem gather_single (acc : Json.Members) (name : Text) :
    gather acc (name, v) = accumulate name v acc := by
  cases v with
  | array items => cases hv
  | _ => rfl

theorem body_single (name : Text) (ms : Json.Members) :
    body ((name, v) :: ms) =
      (if name = contentKey then escape v.plain else element name v) ++ body ms := by
  cases v with
  | array items => cases hv
  | _ => rfl

theorem areMembers_single (name : Text) (ms : Json.Members) :
    areMembers ((name, v) :: ms) =
      ((if name = contentKey then isScalar v && !v.plain.isEmpty else isName name && isElement v) &&
        areMembers ms) := by
  cases v with
  | array items => cases hv
  | _ => rfl

end

/-- **Members of distinct names stand in their order**, whatever stood before them. -/
theorem foldl_gather {ms acc : Json.Members} (h : areMembers ms = true)
    (hd : ((acc ++ ms).map (·.1)).Nodup) : ms.foldl gather acc = acc ++ ms := by
  induction ms generalizing acc with
  | nil => simp
  | cons m ms ih =>
    obtain ⟨name, v⟩ := m
    have hn : name ∉ acc.map (·.1) := by
      rw [List.map_append, List.nodup_append] at hd
      exact fun hm => hd.2.2 name hm name (by simp) rfl
    have hg : gather acc (name, v) = acc ++ [(name, v)] ∧ areMembers ms = true := by
      cases hv : isSingle v with
      | true =>
        rw [areMembers_single hv, Bool.and_eq_true] at h
        exact ⟨(gather_single hv acc name).trans (accumulate_new hn v), h.2⟩
      | false =>
        cases v with
        | array items =>
          simp only [areMembers, Bool.and_eq_true, decide_eq_true_eq] at h
          exact ⟨foldl_accumulate hn h.1.2 h.1.1.2, h.2⟩
        | _ => cases hv
    rw [List.foldl_cons, hg.1, ih hg.2 (by simpa using hd)]
    simp

/-! ## What values write is read -/

theorem itemElements_eq_elements {items : List Json} (h : areElements items = true) (name : Text) :
    itemElements name items = elements name items := by
  induction items with
  | nil => rfl
  | cons v items ih =>
    simp only [areElements, Bool.and_eq_true] at h
    cases v with
    | array inner => cases h.1
    | _ => simp only [itemElements, elements, ih h.2]

/-- The elements of a name begin with a tag. -/
theorem atTag_element {v : Json} (h : isElement v = true) (name : Text) : AtTag (element name v) := by
  have hl : ∀ t, AtTag (leaf name t) := by
    intro t
    unfold leaf
    split <;> rfl
  cases v with
  | object ms => rfl
  | array items => cases h
  | null => exact hl _
  | bool b => exact hl _
  | number n => exact hl _
  | string t => exact hl _

theorem atTag_elements {items : List Json} (h : areElements items = true) (name : Text) :
    AtTag (elements name items) := by
  induction items with
  | nil => rfl
  | cons v items ih =>
    simp only [areElements, Bool.and_eq_true] at h
    exact (atTag_element h.1 name).append (ih h.2)

/-- Members without text of their own begin with a tag. -/
theorem atTag_body {ms : Json.Members} (h : areMembers ms = true)
    (hc : contentKey ∉ ms.map (·.1)) : AtTag (body ms) := by
  induction ms with
  | nil => rfl
  | cons m ms ih =>
    obtain ⟨name, v⟩ := m
    rw [List.map_cons, List.mem_cons, not_or] at hc
    cases hv : isSingle v with
    | true =>
      rw [areMembers_single hv, if_neg (Ne.symm hc.1), Bool.and_eq_true, Bool.and_eq_true] at h
      rw [body_single hv, if_neg (Ne.symm hc.1)]
      exact (atTag_element h.1.2 name).append (ih h.2 hc.2)
    | false =>
      cases v with
      | array items =>
        simp only [areMembers, Bool.and_eq_true, decide_eq_true_eq] at h
        rw [body, if_neg (Ne.symm hc.1), itemElements_eq_elements h.1.2]
        exact (atTag_elements h.1.2 name).append (ih h.2 hc.2)
      | _ => cases hv

/-- An object with a member besides its text is the value of its members. -/
theorem elementValue_eq_object {ms : Json.Members} (h : ms.any (·.1 != contentKey) = true) :
    elementValue ms = .object ms := by
  match ms with
  | [] => cases h
  | [(name, v)] =>
    have hn : name ≠ contentKey := by simpa using h
    exact if_neg hn
  | _ :: _ :: _ => rfl

mutual

/-- **What a value writes under a name adds the value under the name.** -/
theorem reads_element {name : Text} (hn : isLabel name = true) (v : Json)
    (h : isElement v = true) : Reads Anything (element name v) (accumulate name v) := by
  match v with
  | .object ms =>
    simp only [isElement, Bool.and_eq_true, decide_eq_true_eq] at h
    have hb := (reads_body ms h.2 h.1.2).wrap hn
    have hg : ms.foldl gather [] = ms := foldl_gather h.2 h.1.2
    rwa [hg, elementValue_eq_object h.1.1] at hb
  | .array _ => cases h
  | .null => exact .leaf (v := .null) hn rfl
  | .bool b => exact .leaf (v := .bool b) hn rfl
  | .number n => exact .leaf (v := .number n) hn h
  | .string t => exact .leaf (v := .string t) hn h

theorem reads_elements {name : Text} (hn : isLabel name = true) (items : List Json)
    (h : areElements items = true) :
    Reads Anything (elements name items) fun acc =>
      items.foldl (fun acc v => accumulate name v acc) acc := by
  match items with
  | [] => exact .nil
  | v :: items =>
    simp only [areElements, Bool.and_eq_true] at h
    exact (reads_element hn v h.1).append (reads_elements hn items h.2) fun _ _ => trivial

/-- **What members write adds them in their order.** -/
theorem reads_body (ms : Json.Members) (h : areMembers ms = true) (hd : (ms.map (·.1)).Nodup) :
    Reads AtTag (body ms) fun acc => ms.foldl gather acc := by
  match ms with
  | [] => exact .nil
  | (name, v) :: ms =>
    rw [List.map_cons, List.nodup_cons] at hd
    cases hv : isSingle v with
    | true =>
      rw [areMembers_single hv, Bool.and_eq_true] at h
      rw [body_single hv]
      simp only [List.foldl_cons, gather_single hv]
      have hrest := reads_body ms h.2 hd.2
      by_cases hc : name = contentKey
      · rw [if_pos hc, Bool.and_eq_true, Bool.not_eq_true', List.isEmpty_eq_false_iff] at h
        rw [if_pos hc, hc]
        -- no other member is text, so a tag or the end of the element follows
        have htag : AtTag (body ms) := atTag_body h.2 (hc ▸ hd.1)
        exact (Reads.run_plain h.1.1 h.1.2).append hrest fun _ => htag.append
      · rw [if_neg hc, Bool.and_eq_true] at h
        rw [if_neg hc]
        exact (reads_element (isLabel_of_isName h.1.1) v h.1.2).append hrest fun _ _ => trivial
    | false =>
      match v with
      | .array items =>
        simp only [areMembers, Bool.and_eq_true, bne_iff_ne, ne_eq, decide_eq_true_eq] at h
        obtain ⟨⟨⟨⟨hn, hne⟩, -⟩, hi⟩, hm⟩ := h
        rw [body, if_neg hne, itemElements_eq_elements hi]
        exact (reads_elements (isLabel_of_isName hn) items hi).append (reads_body ms hm hd.2)
          fun _ _ => trivial

end

/-- **A document is read back from its markup as it was**, its members in their order. -/
theorem read_write {v : Json} (h : isDocument v = true) : read (write v) = .ok v := by
  cases v with
  | object ms =>
    simp only [isDocument, Bool.and_eq_true, decide_eq_true_eq] at h
    obtain ⟨⟨hc, hd⟩, hm⟩ := h
    have hreads := reads_body ms hm hd
    have hmark : (dropStart? [mark] (body ms)).getD (body ms) = body ms := by
      rw [dropStart?_mark (atTag_body hm hc), Option.getD_none]
    have hg : ms.foldl gather [] = ms := foldl_gather hm hd
    rw [← hmark] at hreads
    rw [write, hreads.document, hg, swapRemove_eq_self hc]
  | _ => cases h

/-- Text stands between the elements, and the array stays apart from its neighbours. -/
theorem read_write_order :
    let v : Json := .object [("_id".toList, .number (.whole (-9223372036854775808))),
      ("item".toList, .object [("a".toList, .null), ("content".toList, .string "x < y".toList),
        ("b.c".toList, .array [.bool true, .string []])])]
    isDocument v = true ∧ read (write v) = .ok v :=
  ⟨by decide, read_write (by decide)⟩

end SessionGateway.Xml
