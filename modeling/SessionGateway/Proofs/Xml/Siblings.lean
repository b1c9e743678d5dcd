/-
  Siblings — the values of child elements with one name.

  What stands under a name is the first value that came under it, or an array: the second value
  makes one, and every later one goes to its end.  But the first value may be an array itself, as
  that of an element with two runs of text is, and then nothing tells it from the array that the
  second value makes.

  * `get?_addAll`: of some nodes, only the elements of a name change what stands under it;
  * `gathered_eq_iff`: several values are all items of one array, unless the first is an array;
  * `siblings_kept_iff`: so the values of children with one name are kept one by one in the value
    of an element, wherever it stands, exactly if the first of them is no array.
-/
import SessionGateway.Proofs.Xml.Trees

namespace SessionGateway.Xml

/-! ## Values under a name -/

/-- What stands under a name when a value has come to what stood there. -/
def collect : Option Json → Json → Json
  | none, v => v
  | some (.array items), v => .array (items ++ [v])
  | some first, v => .array [first, v]

/-- What stands under a new name when some values have come under it. -/
def gathered (vs : List Json) : Option Json := vs.foldl (fun o v => some (collect o v)) none

section
variable (name : Text) (v : Json) (ms : Json.Members)

theorem get?_accumulate_self :
    Json.Members.get? name (accumulate name v ms) =
      some (collect (Json.Members.get? name ms) v) := by
  rw [accumulate]
  split
  · next h => rw [Json.Members.get?_insert_self, h]; rfl
  · next h => rw [Json.Members.get?_insert_self, h]; rfl
  · next first hne h =>
    rw [Json.Members.get?_insert_self, h]
    cases first with
    | array items => exact absurd rfl (hne items)
    | _ => rfl

theorem get?_accumulate_of_ne {other : Text} (h : other ≠ name) :
    Json.Members.get? other (accumulate name v ms) = Json.Members.get? other ms := by
  rw [accumulate]
  split <;> exact Json.Members.get?_insert_of_ne h _ ms

end

theorem gathered_ne_none {vs : List Json} (h : vs ≠ []) : gathered vs ≠ none := by
  obtain ⟨us, v, rfl⟩ := (List.eq_nil_or_concat vs).resolve_left h
  simp [gathered]

theorem foldl_collect_array (items vs : List Json) :
    vs.foldl (fun o v => some (collect o v)) (some (.array items)) =
      some (.array (items ++ vs)) := by
  induction vs generalizing items with
  | nil => simp
  | cons v vs ih =>
    rw [List.foldl_cons, collect, ih, List.append_assoc, List.singleton_append]

/-- **Several values under one name** are the items of an array, unless the first is an array. -/
theorem gathered_eq_iff (v w : Json) (vs : List Json) :
    gathered (v :: w :: vs) = some (.array (v :: w :: vs)) ↔ isSingle v = true := by
  have hfirst : gathered (v :: w :: vs) =
      vs.foldl (fun o v => some (collect o v)) (some (collect (some v) w)) := rfl
  cases hv : isSingle v with
  | true =>
    have hsecond : collect (some v) w = .array [v, w] := by
      cases v with
      | array items => cases hv
      | _ => rfl
    rw [hfirst, hsecond, foldl_collect_array]
    simp
  | false =>
    cases v with
    | array items =>
      rw [hfirst, collect, foldl_collect_array, List.append_assoc, List.singleton_append]
      refine iff_of_false (fun he => ?_) Bool.false_ne_true
      -- the items of the first value would be that value alone
      have hitems : items ++ w :: vs = [.array items] ++ w :: vs := by simpa using he
      have hself : items = [.array items] := List.append_cancel_right hitems
      have hsize := congrArg sizeOf hself
      simp only [List.cons.sizeOf_spec, List.nil.sizeOf_spec, Json.array.sizeOf_spec] at hsize
      omega
    | _ => cases hv

/-! ## Elements of a name -/

namespace Node

/-- The nodes in an element. -/
def children : Node → List Node
  | leaf _ => []
  | element _ children _ => children

/-- The tag that opens an element. -/
def tag? : Node → Option Tag
  | leaf (.empty tag) | element tag _ _ => some tag
  | leaf _ => none

/-- The names of the attributes of an element. -/
def attributeNames (n : Node) : List Text :=
  (n.tag?.map (·.attributes.map (·.name))).getD []

/-- The elements of a name that stand in an element. -/
def childrenNamed (name : Text) (n : Node) : List Node :=
  n.children.filter (·.name? == some name)

end Node

section
variable {name : Text} (hc : name ≠ contentKey)
include hc

theorem get?_addTo_of_ne {n : Node} (hn : n.name? ≠ some name) (ms : Json.Members) :
    Json.Members.get? name (n.addTo ms) = Json.Members.get? name ms := by
  match n with
  | .leaf (.empty tag) =>
    have hne : name ≠ tag.name := fun he => hn (congrArg some he.symm)
    exact get?_accumulate_of_ne _ _ _ hne
  | .element tag _ _ =>
    have hne : name ≠ tag.name := fun he => hn (congrArg some he.symm)
    exact get?_accumulate_of_ne _ _ _ hne
  | .leaf (.run gs) =>
    simp only [Node.addTo, Leaf.addTo]
    split
    · rfl
    · exact get?_accumulate_of_ne _ _ _ hc
  | .leaf (.unparsed _) => exact get?_accumulate_of_ne _ _ _ hc
  | .leaf (.comment _) | .leaf (.instruction _) | .leaf (.doctype _) => rfl

/-- **Of some nodes, only the elements of a name** change what stands under it. -/
theorem get?_addAll (ns : List Node) (ms : Json.Members) :
    Json.Members.get? name (addAll ns ms) =
      ((ns.filter (·.name? == some name)).map Node.value).foldl
        (fun o v => some (collect o v)) (Json.Members.get? name ms) := by
  induction ns generalizing ms with
  | nil => rfl
  | cons n ns ih =>
    rw [addAll, ih]
    by_cases hn : n.name? = some name
    · rw [Node.addTo_of_name? hn, get?_accumulate_self, List.filter_cons_of_pos (by simp [hn])]
      rfl
    · rw [get?_addTo_of_ne hc hn, List.filter_cons_of_neg (by simp [hn])]

end

theorem get?_members_tag {tag : Tag} {name : Text} (h : name ∉ tag.attributes.map (·.name)) :
    Json.Members.get? name tag.members = none := by
  have hfold : ∀ (as : List Attribute) (ms : Json.Members), name ∉ as.map (·.name) →
      Json.Members.get? name
          (as.foldl (fun ms a => accumulate a.name (coerce (chars a.value)) ms) ms) =
        Json.Members.get? name ms := by
    intro as
    induction as with
    | nil => exact fun _ _ => rfl
    | cons a as ih =>
      intro ms ha
      rw [List.map_cons, List.mem_cons, not_or] at ha
      rw [List.foldl_cons, ih _ ha.2, get?_accumulate_of_ne _ _ _ ha.1]
  exact hfold tag.attributes [] h

/-- Under a name that no attribute has, an element has what its children of the name gather. -/
theorem get?_members {e : Node} {name : Text} (hc : name ≠ contentKey)
    (ha : name ∉ e.attributeNames) :
    Json.Members.get? name e.members = gathered ((e.childrenNamed name).map Node.value) := by
  match e with
  | .leaf (.empty tag) => exact get?_members_tag ha
  | .element tag children after =>
    rw [Node.members, get?_addAll hc, get?_members_tag ha]
    rfl
  | .leaf (.run _) | .leaf (.unparsed _) | .leaf (.comment _) | .leaf (.instruction _)
  | .leaf (.doctype _) => rfl

/-- An element that has something under another name than `content` is an object. -/
theorem value_eq_object {e : Node} {name : Text} (hc : name ≠ contentKey)
    (h : Json.Members.get? name e.members ≠ none) : e.value = .object e.members := by
  have hmem : name ∈ e.members.map (·.1) := not_not.1 (mt get?_eq_none h)
  obtain ⟨m, hm, rfl⟩ := List.mem_map.1 hmem
  exact elementValue_eq_object (List.any_eq_true.2 ⟨m, hm, bne_iff_ne.2 hc⟩)

/-! ## Elements of a document -/

/-- What is built at the end of two texts is built in the second on what the first one built. -/
theorem built?_append {ts us : List Token} (h : WellFormed (ts ++ us))
    (hu : us.modifyHead Token.unmarked = us) :
    built? (written (ts ++ us)) =
      (built? (written ts)).bind fun b => (us.flatMap Token.pieces).foldlM Builder.step b := by
  have hts : WellFormed ts := h.infix (List.prefix_append ts us).isInfix
  rw [built?_written h, built?_written hts]
  -- a byte order mark belongs to the first of all tokens
  cases ts with
  | nil =>
    rw [List.nil_append, hu]
    rfl
  | cons t ts =>
    rw [List.cons_append, List.modifyHead_cons, List.modifyHead_cons, ← List.cons_append,
      List.flatMap_append, List.foldlM_append]
    rfl

theorem tokens_unmarked_of_name? {e : Node} {name : Text} (h : e.name? = some name) :
    e.tokens.modifyHead Token.unmarked = e.tokens := by
  match e with
  | .leaf (.empty _) | .element _ _ _ => rfl
  | .leaf (.run _) => cases h

/-- **Wherever an element stands in a document**, its value is added to the element around it. -/
theorem built?_element {ns : List Node} (h : WellFormed (tokens ns)) {e : Node} {name : Text}
    (he : e.name? = some name) {before after : List Token}
    (hin : tokens ns = before ++ (e.tokens ++ after)) :
    ∃ b, built? (written before) = some b ∧
      built? (written (before ++ e.tokens)) = some (b.add name e.value) := by
  obtain ⟨b, hb, -⟩ := built?_of_prefix h hin
  have hfront : WellFormed (before ++ e.tokens) := by
    refine h.infix (List.IsPrefix.isInfix ⟨after, ?_⟩)
    rw [hin, List.append_assoc]
  have hadd : e.addTo = accumulate name e.value := funext (Node.addTo_of_name? he)
  refine ⟨b, hb, ?_⟩
  rw [built?_append hfront (tokens_unmarked_of_name? he), hb, Option.bind_some, run_node, hadd,
    Builder.add_eq_within]

/-- **Siblings of one name are kept one by one** exactly if the first of them is no array.  Each
    element of a document adds its value to the element around it; and if two or more of its
    children have a name, that is neither `content` nor the name of an attribute, then it is an
    object, in which the array of their values stands under the name unless the value of the first
    child is an array itself. -/
theorem siblings_kept_iff {ns : List Node} (h : WellFormed (tokens ns)) {e : Node} {tag : Text}
    (he : e.name? = some tag) {before after : List Token}
    (hin : tokens ns = before ++ (e.tokens ++ after)) :
    (∃ b, built? (written before) = some b ∧
      built? (written (before ++ e.tokens)) = some (b.add tag e.value)) ∧
    ∀ name, name ≠ contentKey → name ∉ e.attributeNames → 2 ≤ (e.childrenNamed name).length →
      ∃ ms, e.value = .object ms ∧
        (Json.Members.get? name ms = some (.array ((e.childrenNamed name).map Node.value)) ↔
          ∀ first ∈ (e.childrenNamed name).head?, isSingle first.value = true) := by
  refine ⟨built?_element h he hin, fun name hc ha hlen => ?_⟩
  have hget := get?_members hc ha
  match hchildren : e.childrenNamed name with
  | [] | [_] => simp [hchildren] at hlen
  | first :: second :: rest =>
    rw [hchildren, List.map_cons, List.map_cons] at hget
    have hne : Json.Members.get? name e.members ≠ none := hget ▸ gathered_ne_none (by simp)
    refine ⟨e.members, value_eq_object hc hne, ?_⟩
    rw [hget]
    simpa using gathered_eq_iff first.value second.value (rest.map Node.value)

/-- Orders as the children of a record, the last one with two runs of text. -/
theorem siblings_kept_orders :
    let e : Node := .element ⟨"r".toList, [⟨[' '], "id".toList, [], [], '\x22', [.plain '1']⟩], []⟩
      [.element (.bare "o".toList) [.leaf (.unparsed ['1'])] [], .leaf (.run [.plain '-']),
        .leaf (.empty (.bare "o".toList)),
        .element (.bare "o".toList)
          [.leaf (.run [.plain 'x']), .leaf (.comment []), .leaf (.run [.plain 'y'])] []] []
    ∃ ms, e.value = .object ms ∧ Json.Members.get? "o".toList ms =
      some (.array [.string ['1'], .string [], .array [.string ['x'], .string ['y']]]) := by
  intro e
  have h : WellFormed (tokens [e]) := ⟨by decide, by decide⟩
  have hin : tokens [e] = [] ++ (e.tokens ++ []) := rfl
  obtain ⟨-, hkept⟩ := siblings_kept_iff h rfl hin
  obtain ⟨ms, hms, hiff⟩ := hkept "o".toList (by decide) (by decide) (by decide)
  refine ⟨ms, hms, hiff.2 ?_⟩
  rintro first ⟨⟩
  rfl

/-- A comment cuts the text of the first element in two, and the array that it is takes in the
    value of the second one. -/
theorem siblings_absorbed :
    let e : Node := .element (.bare "r".toList)
      [.element (.bare "a".toList)
          [.leaf (.run [.plain 'x']), .leaf (.comment [' ']), .leaf (.run [.plain 'y'])] [],
        .element (.bare "a".toList) [.leaf (.run [.plain 'z'])] []] []
    WellFormed (tokens [e]) ∧ document [e] = "<r><a>x<!-- -->y</a><a>z</a></r>".toList ∧
      (e.childrenNamed "a".toList).map Node.value =
        [.array [.string ['x'], .string ['y']], .string ['z']] ∧
      read (document [e]) = .ok (.object [("r".toList, .object [("a".toList,
        .array [.string ['x'], .string ['y'], .string ['z']])])]) := by
  intro e
  have h : WellFormed (tokens [e]) := ⟨by decide, by decide⟩
  exact ⟨h, rfl, rfl, read_whole h⟩

end SessionGateway.Xml
