/-
  Trees — documents as nested elements, and the values that they stand for.

  The value of an element is found by recursion: its attributes add their values to an object,
  then the nodes in it, in their order (`Node.addTo`).  The reader keeps a stack of open elements
  instead, and finds the same.

  * `run_nodes`: the pieces of nodes change the innermost element as the nodes do, and leave the
    open elements as they were;
  * `built?_of_prefix`: in front of any token the reader has just those elements open that were
    opened and not closed;
  * `read_document`: a whole document is read as what its nodes add, and one that ends inside an
    element is refused with the name of the innermost one;
  * `root_kept_iff`: a document of one element is read as an object with that element alone,
    unless it is named `content`.
-/
import SessionGateway.Proofs.Xml.RoundTrip
import SessionGateway.Proofs.Xml.Tokens

namespace SessionGateway.Xml

/-! ## Nodes -/

/-- A node of a document. -/
inductive Node where
  | leaf (l : Leaf)
  /-- An element between two tags, the second with white space behind its name. -/
  | element (tag : Tag) (children : List Node) (after : Text)

mutual

/-- The tokens of a node. -/
def Node.tokens : Node → List Token
  | .leaf l => [.leaf l]
  | .element tag children after => .opening tag :: (tokens children ++ [.closing tag.name after])

/-- The tokens of nodes behind each other. -/
def tokens : List Node → List Token
  | [] => []
  | n :: ns => n.tokens ++ tokens ns

end

/-- The text of a document with the given nodes. -/
def document (ns : List Node) : Text := written (tokens ns)

/-- The node without a byte order mark that its text begins with. -/
def Node.unmarked : Node → Node
  | .leaf l => .leaf l.unmarked
  | n => n

/-! ## Values -/

/-- What the attributes of a tag add to an object without members. -/
def Tag.members (t : Tag) : Json.Members :=
  t.attributes.foldl (fun ms a => accumulate a.name (coerce (chars a.value)) ms) []

/-- What a leaf adds to the members of the element around it. -/
def Leaf.addTo (ms : Json.Members) : Leaf → Json.Members
  | .empty tag => accumulate tag.name (elementValue tag.members) ms
  | .run gs =>
    if (trimmed gs).isEmpty then ms else accumulate contentKey (coerce (chars (trimmed gs))) ms
  | .unparsed t => accumulate contentKey (.string t) ms
  | .comment _ | .instruction _ | .doctype _ => ms

mutual

/-- What a node adds to the members of the element around it. -/
def Node.addTo : Node → Json.Members → Json.Members
  | .leaf l, ms => l.addTo ms
  | .element tag children _, ms =>
    accumulate tag.name (elementValue (addAll children tag.members)) ms

/-- What nodes add, one after the other. -/
def addAll : List Node → Json.Members → Json.Members
  | [], ms => ms
  | n :: ns, ms => addAll ns (n.addTo ms)

end

namespace Node

/-- The name of an element; other nodes have none. -/
def name? : Node → Option Text
  | leaf (.empty tag) => some tag.name
  | element tag _ _ => some tag.name
  | leaf _ => none

/-- The members that the attributes of an element and the nodes in it add up to. -/
def members : Node → Json.Members
  | leaf (.empty tag) => tag.members
  | element tag children _ => addAll children tag.members
  | leaf _ => []

/-- The value of an element. -/
def value (n : Node) : Json := elementValue n.members

/-- An element adds its value under its name. -/
theorem addTo_of_name? {n : Node} {name : Text} (h : n.name? = some name) (ms : Json.Members) :
    n.addTo ms = accumulate name n.value ms := by
  match n with
  | leaf (.empty tag) =>
    obtain rfl := Option.some.inj h
    rfl
  | element tag children _ =>
    obtain rfl := Option.some.inj h
    rfl
  | leaf (.run _) | leaf (.unparsed _) | leaf (.comment _) | leaf (.instruction _)
  | leaf (.doctype _) => cases h

end Node

theorem addAll_append (ms ns : List Node) (acc : Json.Members) :
    addAll (ms ++ ns) acc = addAll ns (addAll ms acc) := by
  induction ms generalizing acc with
  | nil => rfl
  | cons n ms ih => rw [List.cons_append, addAll, addAll, ih]

/-! ## What pieces build -/

theorem ofAttributes_pairs (t : Tag) : ofAttributes t.pairs = t.members := by
  rw [ofAttributes, Tag.pairs, List.foldl_map]
  rfl

theorem Builder.within_id (b : Builder) : b.within id = b := by
  obtain ⟨root, opened⟩ := b
  cases opened <;> rfl

/-- The pieces of a leaf change the innermost element as the leaf does. -/
theorem run_leaf (l : Leaf) (b : Builder) :
    l.pieces.foldlM Builder.step b = some (b.within (l.addTo ·)) := by
  cases l with
  | empty tag =>
    rw [Leaf.pieces, List.foldlM_cons, Builder.step, Builder.add_eq_within, ofAttributes_pairs]
    rfl
  | run gs =>
    simp only [Leaf.pieces, Leaf.addTo]
    split
    · exact congrArg some b.within_id.symm
    · rw [List.foldlM_cons, Builder.step, Builder.add_eq_within]
      rfl
  | unparsed t =>
    rw [Leaf.pieces, List.foldlM_cons, Builder.step, Builder.add_eq_within]
    rfl
  | comment _ | instruction _ | doctype _ => exact congrArg some b.within_id.symm

mutual

/-- **The pieces of a node** change the innermost element as the node does. -/
theorem run_node (n : Node) (b : Builder) :
    (n.tokens.flatMap Token.pieces).foldlM Builder.step b = some (b.within n.addTo) := by
  match n with
  | .leaf l =>
    have hone : (Node.leaf l).tokens.flatMap Token.pieces = l.pieces := by
      rw [Node.tokens, List.flatMap_singleton]
      rfl
    rw [hone]
    exact run_leaf l b
  | .element tag children after =>
    have hpieces : (Node.element tag children after).tokens.flatMap Token.pieces =
        .opening tag.name tag.pairs ::
          ((tokens children).flatMap Token.pieces ++ [.closing tag.name]) := by
      rw [Node.tokens, List.flatMap_cons, List.flatMap_append, List.flatMap_singleton]
      rfl
    have hopen : b.step (.opening tag.name tag.pairs) =
        some ⟨b.root, ⟨tag.name, tag.members⟩ :: b.opened⟩ := by
      rw [Builder.step, ofAttributes_pairs]
    -- the children change the members of the new element, and its end adds their value outside
    rw [hpieces, List.foldlM_cons, hopen, Option.bind_eq_bind, Option.bind_some,
      List.foldlM_append, run_nodes children, Option.bind_eq_bind, Option.bind_some,
      List.foldlM_cons, Builder.within, Builder.step]
    simp only [if_true, Builder.add_eq_within]
    rfl

/-- **The pieces of nodes** change the innermost element as the nodes do. -/
theorem run_nodes (ns : List Node) (b : Builder) :
    ((tokens ns).flatMap Token.pieces).foldlM Builder.step b = some (b.within (addAll ns)) := by
  match ns with
  | [] => exact congrArg some b.within_id.symm
  | n :: ns =>
    rw [tokens, List.flatMap_append, List.foldlM_append, run_node n, Option.bind_eq_bind,
      Option.bind_some, run_nodes ns, Builder.within_within]
    rfl

end

/-! ## What is built at any point -/

/-- What the reader has built at the end of a text. -/
def built? (t : Text) : Option Builder :=
  (Markup.ofText? t).bind fun ms => ms.foldlM Builder.step ⟨[], []⟩

theorem read_of_built? {t : Text} {b : Builder} (h : built? t = some b) : read t = b.finish := by
  rw [built?] at h
  rw [read, h]

theorem built?_written {ts : List Token} (h : WellFormed ts) :
    built? (written ts) =
      ((ts.modifyHead Token.unmarked).flatMap Token.pieces).foldlM Builder.step ⟨[], []⟩ := by
  rw [built?, ofText?_written h, Option.bind_some]

theorem tokens_unmarked (ns : List Node) :
    tokens (ns.modifyHead Node.unmarked) = (tokens ns).modifyHead Token.unmarked := by
  cases ns with
  | nil => rfl
  | cons n ns => cases n <;> rfl

theorem built?_document {ns : List Node} (h : WellFormed (tokens ns)) :
    built? (document ns) = some ⟨addAll (ns.modifyHead Node.unmarked) [], []⟩ := by
  rw [document, built?_written h, ← tokens_unmarked, run_nodes]
  rfl

/-- The names of the elements that are open behind a token, the innermost first. -/
def Token.turn (names : List Text) : Token → List Text
  | .opening tag => tag.name :: names
  | .closing _ _ => names.tail
  | .leaf _ => names

/-- The names of the elements that tokens open and do not close, the innermost first. -/
def opened (ts : List Token) : List Text := ts.foldl Token.turn []

/-- The names of the open elements. -/
def Builder.names (b : Builder) : List Text := b.opened.map (·.name)

theorem Builder.names_within (b : Builder) (f : Json.Members → Json.Members) :
    (b.within f).names = b.names := by
  obtain ⟨root, opened⟩ := b
  cases opened <;> rfl

/-- The pieces of a token open and close the elements that the token does. -/
theorem names_of_token {t : Token} {b b' : Builder}
    (h : t.pieces.foldlM Builder.step b = some b') : b'.names = t.turn b.names := by
  cases t with
  | opening tag =>
    cases h
    rfl
  | closing name after =>
    obtain ⟨root, opened⟩ := b
    cases opened with
    | nil => cases h
    | cons e es =>
      have hstep : Builder.step ⟨root, e :: es⟩ (.closing name) =
          if e.name = name then
            some ((⟨root, es⟩ : Builder).add e.name (elementValue e.members))
          else none := rfl
      rw [Token.pieces, List.foldlM_cons, hstep] at h
      -- a tag that fits closes the innermost element; any other is refused
      split at h
      · rw [Option.bind_eq_bind, Option.bind_some, List.foldlM_nil, Builder.add_eq_within] at h
        rw [← Option.some.inj h, Builder.names_within]
        rfl
      · cases h
  | leaf l =>
    rw [Token.pieces, run_leaf] at h
    rw [← Option.some.inj h, Builder.names_within]
    rfl

/-- **The open elements** behind tokens are those that were opened and not closed. -/
theorem names_of_tokens {ts : List Token} {b b' : Builder}
    (h : (ts.flatMap Token.pieces).foldlM Builder.step b = some b') :
    b'.names = ts.foldl Token.turn b.names := by
  induction ts generalizing b with
  | nil =>
    cases h
    rfl
  | cons t ts ih =>
    rw [List.flatMap_cons, List.foldlM_append, Option.bind_eq_bind,
      Option.bind_eq_some_iff] at h
    obtain ⟨c, ht, hts⟩ := h
    rw [ih hts, names_of_token ht, List.foldl_cons]

theorem opened_unmarked (ts : List Token) : opened (ts.modifyHead Token.unmarked) = opened ts := by
  cases ts with
  | nil => rfl
  | cons t ts => cases t <;> rfl

/-- **In front of any token of a document** the reader has built something, in which just those
    elements are open that were opened and not closed. -/
theorem built?_of_prefix {ns : List Node} (h : WellFormed (tokens ns)) {ts us : List Token}
    (ht : tokens ns = ts ++ us) :
    ∃ b, built? (written ts) = some b ∧ b.names = opened ts := by
  have hts : WellFormed ts := h.infix (ht ▸ (List.prefix_append ts us).isInfix)
  cases ts with
  | nil => exact ⟨⟨[], []⟩, built?_written hts, rfl⟩
  | cons t ts =>
    -- the beginning has the first token of the document, so it loses the same mark
    have hall := built?_document h
    rw [document, built?_written h, ht, List.cons_append, List.modifyHead_cons,
      ← List.cons_append, List.flatMap_append, List.foldlM_append, Option.bind_eq_bind,
      Option.bind_eq_some_iff] at hall
    obtain ⟨b, hb, -⟩ := hall
    refine ⟨b, (built?_written hts).trans hb, ?_⟩
    rw [names_of_tokens hb]
    exact opened_unmarked (t :: ts)

/-! ## Whole and unfinished documents -/

/-- A document is read as what its nodes add, without a byte order mark in front. -/
theorem read_whole {ns : List Node} (h : WellFormed (tokens ns)) :
    read (document ns) =
      .ok (.object (Json.Members.swapRemove contentKey
        (addAll (ns.modifyHead Node.unmarked) []))) := by
  rw [read_of_built? (built?_document h)]
  rfl

/-- **A document is read by recursion over its elements**, a byte order mark in front aside; and
    if it ends inside an element, it is refused with the name of the innermost one. -/
theorem read_document {ns : List Node} (h : WellFormed (tokens ns)) :
    read (document ns) =
        .ok (.object (Json.Members.swapRemove contentKey
          (addAll (ns.modifyHead Node.unmarked) []))) ∧
      ∀ ts us name, tokens ns = ts ++ us → (opened ts).head? = some name →
        read (written ts) = .error (.unclosed name) := by
  refine ⟨read_whole h, fun ts us name ht hname => ?_⟩
  obtain ⟨b, hb, hnames⟩ := built?_of_prefix h ht
  rw [read_of_built? hb, Builder.finish]
  rw [← hnames, Builder.names] at hname
  cases ho : b.opened with
  | nil =>
    rw [ho] at hname
    cases hname
  | cons e es =>
    rw [ho] at hname
    simp only [Except.error.injEq, Fault.unclosed.injEq]
    exact Option.some.inj hname

/-- Text on both sides of elements with attributes, a section, a comment and white space in tags;
    and the same document up to the section. -/
theorem read_document_mixed :
    let number : Attribute := ⟨[' '], "id".toList, [], [' '], '\x27', [.plain '7']⟩
    let b : Node := .element ⟨"b".toList, [number], []⟩
      [.leaf (.unparsed ['<']), .leaf (.run [.plain 'y'])] ['\n']
    let ns : List Node := [.leaf (.instruction "xml".toList), .leaf (.run [.plain 'x']),
      .element (.bare "a".toList)
        [.leaf (.run [.plain ' ', .named '<', .plain ' ']), b, .leaf (.comment ['-']),
          .leaf (.empty (.bare "b".toList)), .leaf (.run [.decimal [4, 9]])] []]
    WellFormed (tokens ns) ∧
      read (document ns) = .ok (.object [("a".toList, .object [
        ("content".toList, .array [.string ['<'], .number (.whole 1)]),
        ("b".toList, .array [
          .object [("id".toList, .number (.whole 7)),
            ("content".toList, .array [.string ['<'], .string ['y']])],
          .string []])])]) ∧
      read (written ((tokens ns).take 6)) = .error (.unclosed ['b']) := by
  intro number b ns
  have h : WellFormed (tokens ns) := ⟨by decide, by decide⟩
  obtain ⟨hwhole, hcut⟩ := read_document h
  exact ⟨h, hwhole, hcut _ _ _ (List.take_append_drop 6 (tokens ns)).symm rfl⟩

/-- A byte order mark is no text in front of the elements, and they keep their order; the removal
    of such a text would move the last of them to the front. -/
theorem read_marked_order :
    let ns : List Node := [.leaf (.run [.plain mark]), .leaf (.empty (.bare ['a'])),
      .leaf (.empty (.bare ['b']))]
    WellFormed (tokens ns) ∧ document ns = "\uFEFF<a/><b/>".toList ∧
      read (document ns) = .ok (.object [(['a'], .string []), (['b'], .string [])]) ∧
      Json.Members.swapRemove contentKey (addAll ns []) =
        [(['b'], .string []), (['a'], .string [])] := by
  intro ns
  have h : WellFormed (tokens ns) := ⟨by decide, by decide⟩
  exact ⟨h, rfl, read_whole h, rfl⟩

/-! ## The root element -/

namespace Node

/-- Whether a node may stand beside the root element: a comment, an instruction, a document type
    declaration or white space. -/
def isMisc : Node → Bool
  | leaf (.comment _) | leaf (.instruction _) | leaf (.doctype _) => true
  | leaf (.run gs) => gs.all Glyph.isSpace
  | _ => false

theorem addTo_misc {n : Node} (h : n.isMisc = true) (ms : Json.Members) : n.addTo ms = ms := by
  match n with
  | leaf (.comment _) | leaf (.instruction _) | leaf (.doctype _) => rfl
  | leaf (.run gs) =>
    have hdrop : gs.dropWhile Glyph.isSpace = [] :=
      List.dropWhile_eq_nil_iff.2 (List.all_eq_true.1 h)
    have hnone : trimmed gs = [] := by rw [trimmed, trimBy, hdrop]; rfl
    rw [addTo, Leaf.addTo, hnone]
    rfl
  | leaf (.empty _) | leaf (.unparsed _) | element _ _ _ => cases h

theorem unmarked_of_name? {n : Node} {name : Text} (h : n.name? = some name) : n.unmarked = n := by
  match n with
  | leaf (.empty _) | element _ _ _ => rfl
  | leaf (.run _) => cases h
  | leaf (.unparsed _) | leaf (.comment _) | leaf (.instruction _) | leaf (.doctype _) => rfl

end Node

theorem addAll_misc {ns : List Node} (h : ns.all Node.isMisc = true) (ms : Json.Members) :
    addAll ns ms = ms := by
  induction ns generalizing ms with
  | nil => rfl
  | cons n ns ih =>
    rw [List.all_cons, Bool.and_eq_true] at h
    rw [addAll, Node.addTo_misc h.1, ih h.2]

section
variable {before after : List Node} {root : Node} {name : Text} (hroot : root.name? = some name)
  (hbefore : (before.modifyHead Node.unmarked).all Node.isMisc = true)
  (hafter : after.all Node.isMisc = true)
  (h : WellFormed (tokens (before ++ root :: after)))
include hroot hbefore hafter h

/-- What stands around the root element adds nothing to it. -/
theorem read_rooted :
    read (document (before ++ root :: after)) =
      .ok (.object (if name = contentKey then [] else [(name, root.value)])) := by
  have hhead : (before ++ root :: after).modifyHead Node.unmarked =
      before.modifyHead Node.unmarked ++ root :: after := by
    cases before with
    | nil => exact congrArg (· :: after) (Node.unmarked_of_name? hroot)
    | cons n ns => rfl
  have hadd : addAll (before.modifyHead Node.unmarked ++ root :: after) [] =
      [(name, root.value)] := by
    rw [addAll_append, addAll_misc hbefore, addAll, addAll_misc hafter, Node.addTo_of_name? hroot]
    rfl
  rw [read_whole h, hhead, hadd]
  by_cases hn : name = contentKey
  · rw [if_pos hn, hn]
    rfl
  · rw [if_neg hn, swapRemove_eq_self (by simpa using Ne.symm hn)]

/-- **A document is an object with its root element alone**, unless that is named `content`; then
    nothing of it is left. -/
theorem root_kept_iff :
    ((∃ v, read (document (before ++ root :: after)) = .ok (.object [(name, v)])) ↔
      name ≠ contentKey) ∧
    (name = contentKey → read (document (before ++ root :: after)) = .ok (.object [])) := by
  have hread := read_rooted hroot hbefore hafter h
  constructor
  · constructor
    · rintro ⟨v, hv⟩ rfl
      rw [hread, if_pos rfl] at hv
      cases hv
    · intro hn
      rw [if_neg hn] at hread
      exact ⟨root.value, hread⟩
  · intro hn
    rwa [if_pos hn] at hread

end

/-- Declarations, a comment and white space around a root element with children. -/
theorem root_kept_declared :
    let root : Node := .element (.bare "orders".toList)
      [.leaf (.empty (.bare "content".toList)), .leaf (.run [.plain 'x'])] []
    let before : List Node := [.leaf (.run [.plain mark]), .leaf (.instruction "xml".toList),
      .leaf (.run [.plain '\n']), .leaf (.doctype " orders [<!ELEMENT orders ANY>]".toList)]
    let after : List Node := [.leaf (.run [.plain ' ']), .leaf (.comment ['.'])]
    ∃ v, read (document (before ++ root :: after)) = .ok (.object [("orders".toList, v)]) := by
  intro root before after
  have h : WellFormed (tokens (before ++ root :: after)) := ⟨by decide, by decide⟩
  exact (root_kept_iff rfl (by decide) (by decide) h).1.2 (by decide)

/-- A root element with the name that text has in an object. -/
theorem root_named_content :
    let root : Node := .element (.bare "content".toList) [.leaf (.run [.plain '1'])] []
    WellFormed (tokens [root]) ∧ document [root] = "<content>1</content>".toList ∧
      read (document [root]) = .ok (.object []) := by
  intro root
  have h : WellFormed (tokens ([] ++ root :: [])) := ⟨by decide, by decide⟩
  exact ⟨h, rfl, (read_rooted rfl rfl rfl h).trans rfl⟩

end SessionGateway.Xml
