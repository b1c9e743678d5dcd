/-
  Output — whatever a value holds, its markup is read again.

  What the writer puts out is a `Fragment`: runs of text, in which the special characters are
  references, and elements each of which is closed before the one around it.  Only the names in
  the tags are written as they are.  So all values are read again whose `tags` are labels; what
  they are read as is another matter.

  * `Fragment.append`: fragments behind each other are a fragment, with the elements of both;
  * `Fragment.reads`: a fragment is read as some change of the innermost element, with any run of
    text in front, as the runs at its seams are one;
  * `fragment_write`: what a value writes is a fragment with its tags, by recursion along the
    writer;
  * `write_readable`: so it is read without a fault.
-/
import SessionGateway.Proofs.Xml.Trees

namespace SessionGateway.Xml

/-! ## Fragments -/

/-- Runs of text and elements behind each other, with the names of the elements in the order in
    which they begin. -/
inductive Fragment : List Text → Text → Prop where
  | nil : Fragment [] []
  | run {gs : List Glyph} {names : List Text} {t : Text}
      (hgs : ∀ g ∈ gs, g.isValid ['<', '&'] = true) (ht : Fragment names t) :
      Fragment names (spelled gs ++ t)
  | empty {name : Text} {names : List Text} {t : Text} (hn : isLabel name = true)
      (ht : Fragment names t) : Fragment (name :: names) ('<' :: (name ++ ['/', '>']) ++ t)
  | element {name : Text} {inner names : List Text} {s t : Text} (hn : isLabel name = true)
      (hs : Fragment inner s) (ht : Fragment names t) :
      Fragment (name :: (inner ++ names)) (wrap name s ++ t)

namespace Fragment

variable {names others : List Text} {s t name : Text}

/-- **Fragments behind each other** are a fragment. -/
theorem append (hs : Fragment names s) (ht : Fragment others t) :
    Fragment (names ++ others) (s ++ t) := by
  induction hs with
  | nil => exact ht
  | run hgs _ ih =>
    rw [List.append_assoc]
    exact run hgs ih
  | empty hn _ ih =>
    rw [List.append_assoc]
    exact empty hn ih
  | element hn hs _ _ ih =>
    rw [List.append_assoc, List.cons_append, List.append_assoc]
    exact element hn hs ih

/-- Escaped text is a run. -/
theorem escape (t : Text) : Fragment [] (escape t) := by
  have hvalid : ∀ g ∈ t.map Glyph.ofChar, g.isValid ['<', '&'] = true :=
    List.forall_mem_map.2 fun c _ => isValid_ofChar (by decide) c
  have hrun := run hvalid nil
  rwa [List.append_nil, spelled_ofChar] at hrun

theorem wrap (hn : isLabel name = true) (hs : Fragment names s) :
    Fragment (name :: names) (wrap name s) := by
  have helement := element hn hs nil
  rwa [List.append_nil, List.append_nil] at helement

theorem leaf (hn : isLabel name = true) (t : Text) : Fragment [name] (leaf name t) := by
  unfold Xml.leaf
  split
  · have hempty := empty hn nil
    rwa [List.append_nil] at hempty
  · exact wrap hn (escape t)

/-! ## Reading a fragment -/

/-- A run of text does to the innermost element what the leaf does. -/
theorem reads_run {gs : List Glyph} (hgs : ∀ g ∈ gs, g.isValid ['<', '&'] = true) :
    Reads AtTag (spelled gs) ((Leaf.run gs).addTo ·) := by
  have hvalid : (Token.leaf (.run gs)).isValid = true := List.all_eq_true.2 hgs
  exact ⟨_, fun done rest hr => piecesOnto?_token hvalid (fun _ => hr) done, run_leaf (.run gs)⟩

/-- **A fragment is read** with a run of text in front. -/
theorem reads (h : Fragment names t) {gs : List Glyph}
    (hgs : ∀ g ∈ gs, g.isValid ['<', '&'] = true) : ∃ f, Reads AtTag (spelled gs ++ t) f := by
  have hnil : ∀ g ∈ ([] : List Glyph), g.isValid ['<', '&'] = true := nofun
  induction h generalizing gs with
  | nil =>
    rw [List.append_nil]
    exact ⟨_, reads_run hgs⟩
  | run hgs' _ ih =>
    -- the two runs are one
    have hboth := ih (List.forall_mem_append.2 ⟨hgs, hgs'⟩)
    rwa [spelled, List.flatMap_append, List.append_assoc] at hboth
  | empty hn _ ih =>
    obtain ⟨f, hf⟩ := ih hnil
    have hback := (Reads.empty hn).append hf fun _ _ => trivial
    exact ⟨_, (reads_run hgs).append hback fun _ _ => rfl⟩
  | element hn _ _ ihs iht =>
    obtain ⟨f, hf⟩ := ihs hnil
    obtain ⟨g, hg⟩ := iht hnil
    have hback := (Reads.wrap hn hf).append hg fun _ _ => trivial
    exact ⟨_, (reads_run hgs).append hback fun _ _ => rfl⟩

/-- Behind a byte order mark there is a fragment, too. -/
theorem unmarked (h : Fragment names t) :
    Fragment names ((dropStart? [mark] t).getD t) := by
  induction h with
  | nil => exact nil
  | @run gs names t hgs ht ih =>
    match gs with
    | [] => exact ih
    | g :: gs =>
      by_cases hg : g = .plain mark
      · rw [hg]
        exact run (List.forall_mem_cons.1 hgs).2 ht
      · have hnone := dropStart?_mark_glyph (hgs g List.mem_cons_self) hg (spelled gs ++ t)
        have hself : Fragment names (spelled (g :: gs) ++ t) := run hgs ht
        rw [spelled, List.flatMap_cons, List.append_assoc] at hself ⊢
        rwa [← spelled, hnone]
  | empty hn ht => exact empty hn ht
  | element hn hs ht => exact element hn hs ht

/-- **A fragment is a document.** -/
theorem document (h : Fragment names t) : ∃ v, read t = .ok v := by
  have hnil : ∀ g ∈ ([] : List Glyph), g.isValid ['<', '&'] = true := nofun
  obtain ⟨f, hf⟩ := h.unmarked.reads hnil
  exact ⟨_, hf.document⟩

end Fragment

/-! ## What values write -/

mutual

/-- The names in the tags that a value under the name `tag` writes. -/
def elementTags (tag : Text) : Json → List Text
  | .object ms => tag :: bodyTags ms
  | .array items => elementsTags tag items
  | .null | .bool _ | .number _ | .string _ => [tag]

/-- The names in the tags of the items of an array under the name `tag`. -/
def elementsTags (tag : Text) : List Json → List Text
  | [] => []
  | v :: items => elementTags tag v ++ elementsTags tag items

/-- The names in the tags of the members of an object; `content` is written without a tag. -/
def bodyTags : List (Text × Json) → List Text
  | [] => []
  | (name, .array items) :: ms =>
    (if name = contentKey then [] else itemElementsTags name items) ++ bodyTags ms
  | (name, v) :: ms => (if name = contentKey then [] else elementTags name v) ++ bodyTags ms

/-- The names in the tags of the items of an array that is the member `name` of an object. -/
def itemElementsTags (name : Text) : List Json → List Text
  | [] => []
  | .array inner :: items => name :: elementsTags arrayTag inner ++ itemElementsTags name items
  | v :: items => elementTags name v ++ itemElementsTags name items

end

theorem bodyTags_single {v : Json} (hv : isSingle v = true) (name : Text) (ms : Json.Members) :
    bodyTags ((name, v) :: ms) =
      (if name = contentKey then [] else elementTags name v) ++ bodyTags ms := by
  cases v with
  | array items => cases hv
  | _ => rfl

/-- The names in the tags that a value writes. -/
def tags : Json → List Text
  | .object ms => bodyTags ms
  | .array items => elementsTags arrayTag items
  | _ => []

mutual

/-- **What a value writes under a name** is a fragment. -/
theorem fragment_element {tag : Text} (v : Json)
    (h : ∀ name ∈ elementTags tag v, isLabel name = true) :
    Fragment (elementTags tag v) (element tag v) := by
  match v with
  | .object ms =>
    rw [elementTags, List.forall_mem_cons] at h
    exact .wrap h.1 (fragment_body ms h.2)
  | .array items => exact fragment_elements items h
  | .null | .bool _ | .number _ | .string _ => exact .leaf (h tag List.mem_cons_self) _

theorem fragment_elements {tag : Text} (items : List Json)
    (h : ∀ name ∈ elementsTags tag items, isLabel name = true) :
    Fragment (elementsTags tag items) (elements tag items) := by
  match items with
  | [] => exact .nil
  | v :: items =>
    rw [elementsTags, List.forall_mem_append] at h
    exact (fragment_element v h.1).append (fragment_elements items h.2)

/-- **What members write** is a fragment. -/
theorem fragment_body (ms : Json.Members) (h : ∀ name ∈ bodyTags ms, isLabel name = true) :
    Fragment (bodyTags ms) (body ms) := by
  match ms with
  | [] => exact .nil
  | (name, v) :: ms =>
    cases hv : isSingle v with
    | true =>
      rw [bodyTags_single hv, List.forall_mem_append] at h
      rw [bodyTags_single hv, body_single hv]
      refine .append ?_ (fragment_body ms h.2)
      by_cases hc : name = contentKey
      · rw [if_pos hc, if_pos hc]
        exact .escape v.plain
      · rw [if_neg hc] at h
        rw [if_neg hc, if_neg hc]
        exact fragment_element v h.1
    | false =>
      match v with
      | .array items =>
        rw [bodyTags, List.forall_mem_append] at h
        rw [bodyTags, body]
        refine .append ?_ (fragment_body ms h.2)
        by_cases hc : name = contentKey
        · rw [if_pos hc, if_pos hc]
          exact .escape _
        · rw [if_neg hc] at h
          rw [if_neg hc, if_neg hc]
          exact fragment_itemElements items h.1

theorem fragment_itemElements {name : Text} (items : List Json)
    (h : ∀ tag ∈ itemElementsTags name items, isLabel tag = true) :
    Fragment (itemElementsTags name items) (itemElements name items) := by
  match items with
  | [] => exact .nil
  | .array inner :: items =>
    rw [itemElementsTags, List.cons_append, List.forall_mem_cons, List.forall_mem_append] at h
    exact (Fragment.wrap h.1 (fragment_elements inner h.2.1)).append
      (fragment_itemElements items h.2.2)
  | .object _ :: items | .null :: items | .bool _ :: items | .number _ :: items
  | .string _ :: items =>
    simp only [itemElementsTags, List.forall_mem_append] at h
    exact (fragment_element _ h.1).append (fragment_itemElements items h.2)

end

theorem fragment_write (v : Json) (h : ∀ name ∈ tags v, isLabel name = true) :
    Fragment (tags v) (write v) := by
  have hscalar : ∀ t, Fragment [] ('\x22' :: (escape t ++ ['\x22'])) := by
    intro t
    have hquote : ∀ g ∈ [Glyph.plain '\x22'], g.isValid ['<', '&'] = true := by decide
    have hmark : Fragment [] ['\x22'] := .run hquote .nil
    exact hmark.append ((Fragment.escape t).append hmark)
  cases v with
  | object ms => exact fragment_body ms h
  | array items => exact fragment_elements items h
  | null | bool _ | number _ | string _ => exact hscalar _

/-- **Whatever a value holds, its markup is read without a fault**, if the names that it writes in
    tags are labels: it is a fragment with just these tags. -/
theorem write_readable {v : Json} (h : ∀ name ∈ tags v, isLabel name = true) :
    Fragment (tags v) (write v) ∧ ∃ w, read (write v) = .ok w := by
  have hfragment := fragment_write v h
  exact ⟨hfragment, hfragment.document⟩

/-- Arrays in arrays, runs of text next to each other, and characters that mean something. -/
theorem write_readable_mixed :
    let v : Json := .object [
      ("content".toList, .array [.string "<&".toList, .object [("a b".toList, .null)]]),
      ("p".toList, .array [.array [.string ['>'], .array []], .object [("content".toList, .null)]]),
      ("q=1".toList, .object [("r".toList, .string []), ("content".toList, .string [' '])])]
    (∀ name ∈ tags v, isLabel name = true) ∧
      Fragment ["p".toList, arrayTag, "p".toList, "q=1".toList, "r".toList] (write v) ∧
      ∃ w, read (write v) = .ok w := by
  intro v
  have h : ∀ name ∈ tags v, isLabel name = true := by decide
  exact ⟨h, write_readable h⟩

theorem piecesOnto?_eq_none {t : Text} (h : markup? t = none) (done : List Markup) :
    piecesOnto? done ('<' :: t) = none := by
  rw [piecesOnto?, if_pos rfl]
  split
  · next heq =>
    rw [h] at heq
    cases heq
  · rfl

/-- A name that begins like a declaration: its tag is none of a document type. -/
theorem write_unreadable :
    let v : Json := .object [("a".toList, .object [("!x".toList, .bool true)])]
    write v = "<a><!x>true</!x></a>".toList ∧ read (write v) = .error .malformed := by
  intro v
  have hvalid : (Tag.bare ['a']).isValid = true := by decide
  have hnone : markup? "!x>true</!x></a>".toList = none := rfl
  have hpieces : Markup.ofText? (write v) = none :=
    (piecesOnto?_tag (markup?_opening hvalid _) []).trans (piecesOnto?_eq_none hnone _)
  refine ⟨rfl, ?_⟩
  rw [read, hpieces]
  rfl

end SessionGateway.Xml
