/-
  Reading what was written — tags and runs of text, and what they do to the open elements.

  A text reads (`Reads`) as a change of the members of the innermost element if, in front of any
  rest of a given kind, its pieces make that change and leave the open elements as they were.  A
  run of text has to stand in front of a tag or at the end (`AtTag`), an element in front of
  anything.  Such texts can be put behind each other (`Reads.append`).

  * `Reads.run`: an escaped text adds its value under `content`;
  * `Reads.wrap`, `Reads.empty`: an element adds the value of its members under its name.
-/
import SessionGateway.Proofs.Xml.Tags

namespace SessionGateway.Xml

/-! ## Names -/

/-- Whether a character may begin a name. -/
def isNameStart (c : Char) : Bool := c.isAlpha || c == '_'

/-- Whether a character may continue a name; letters beyond ASCII are among them. -/
def isNameChar (c : Char) : Bool :=
  c.isAlphanum || c == '-' || c == '_' || c == '.' || 0x80 ≤ c.toNat

/-- Whether a text is a name. -/
def isName : Text → Bool
  | [] => false
  | c :: t => isNameStart c && t.all isNameChar

/-- A name has none of the characters that mean something in a tag. -/
theorem isLabel_of_isName {name : Text} (h : isName name = true) : isLabel name = true := by
  have hspecial : ∀ c ∈ leadChars ++ tagChars, isNameChar c = false := by decide
  have hchars : ∀ c ∈ name, isNameChar c = true := by
    cases name with
    | nil => cases h
    | cons c t =>
      simp only [isName, Bool.and_eq_true, List.all_eq_true] at h
      rw [List.forall_mem_cons]
      refine ⟨?_, h.2⟩
      have hs := h.1
      simp only [isNameStart, Bool.or_eq_true, beq_iff_eq] at hs
      rcases hs with hs | rfl
      · simp [isNameChar, Char.isAlphanum, hs]
      · rfl
  have hnot : ∀ c ∈ name, c ∉ leadChars ++ tagChars := fun c hc hm => by
    have hn := hspecial c hm
    rw [hchars c hc] at hn
    cases hn
  have hne : name ≠ [] := by
    rintro rfl
    cases h
  simp only [isLabel, isWord, Bool.and_eq_true, Bool.not_eq_true', List.isEmpty_eq_false_iff,
    List.all_eq_true, List.contains_eq_mem, decide_eq_false_iff_not, bne_iff_ne]
  refine ⟨⟨⟨hne, fun c hc hm => hnot c hc (List.mem_append_right _ hm)⟩, ?_⟩, fun hl => ?_⟩
  · rw [Option.all_eq_true]
    intro c hc
    have hm := hnot c (List.mem_of_head? hc)
    simpa using fun he => hm (List.mem_append_left _ he)
  · exact hnot '/' (List.mem_of_getLast? hl) (by decide)

/-! ## Pieces -/

theorem piecesOnto?_tag {t rest : Text} {m : Markup} (h : markup? t = some (m, rest))
    (done : List Markup) : piecesOnto? done ('<' :: t) = piecesOnto? (m :: done) rest := by
  rw [piecesOnto?, if_pos rfl]
  split
  · next heq =>
    rw [h] at heq
    cases heq
    rfl
  · next heq =>
    rw [h] at heq
    cases heq

/-- A text begins with a tag or is empty. -/
def AtTag (t : Text) : Prop := t.head?.all (· == '<') = true

theorem AtTag.append {s t : Text} (hs : AtTag s) (ht : AtTag t) : AtTag (s ++ t) := by
  cases s with
  | nil => exact ht
  | cons c s => exact hs

/-- A text that begins with a tag has no byte order mark. -/
theorem dropStart?_mark {t : Text} (h : AtTag t) : dropStart? [mark] t = none := by
  cases t with
  | nil => rfl
  | cons c t =>
    have hc : c = '<' := by simpa [AtTag] using h
    rw [hc, dropStart?, if_neg (by decide)]

/-- **A run of text** in front of a tag is read as its piece, if it has one. -/
theorem piecesOnto?_run {t rest : Text} {ms : List Markup} (hlt : '<' ∉ t)
    (hrun : run? t = some ms) (hr : AtTag rest) (done : List Markup) :
    piecesOnto? done (t ++ rest) = piecesOnto? (ms ++ done) rest := by
  cases t with
  | nil =>
    cases hrun
    rfl
  | cons c t =>
    rw [List.mem_cons, not_or] at hlt
    have hp : ∀ d ∈ t, (d != '<') = true := fun d hd =>
      bne_iff_ne.2 fun he => hlt.2 (he ▸ hd)
    have hhead : rest.head?.all (!(· != '<') ·) = true := by simpa [AtTag, bne] using hr
    have hspan := span_append hp hhead
    rw [List.cons_append, piecesOnto?, if_neg (Ne.symm hlt.1)]
    simp only [hspan.1, hspan.2, hrun]

/-! ## What pieces do -/

/-- Changes the members of the innermost element. -/
def Builder.within (b : Builder) (f : Json.Members → Json.Members) : Builder :=
  match b.opened with
  | [] => { b with root := f b.root }
  | e :: es => { b with opened := { e with members := f e.members } :: es }

theorem Builder.add_eq_within (b : Builder) (name : Text) (v : Json) :
    b.add name v = b.within (accumulate name v) := by
  obtain ⟨root, opened⟩ := b
  cases opened <;> rfl

theorem Builder.within_within (b : Builder) (f g : Json.Members → Json.Members) :
    (b.within f).within g = b.within (g ∘ f) := by
  obtain ⟨root, opened⟩ := b
  cases opened <;> rfl

/-- In front of any text of the given kind, the text is read as pieces that change the members of
    the innermost element and leave the open elements as they were. -/
def Reads (before : Text → Prop) (t : Text) (f : Json.Members → Json.Members) : Prop :=
  ∃ ms : List Markup,
    (∀ done rest, before rest →
      piecesOnto? done (t ++ rest) = piecesOnto? (ms.reverse ++ done) rest) ∧
    ∀ b : Builder, ms.foldlM Builder.step b = some (b.within f)

/-- An element ends with a tag of its own, so anything may follow. -/
def Anything (_ : Text) : Prop := True

namespace Reads

variable {before after : Text → Prop} {s t : Text} {f g : Json.Members → Json.Members}

theorem nil : Reads before [] id := by
  refine ⟨[], fun _ _ _ => rfl, fun b => ?_⟩
  obtain ⟨root, opened⟩ := b
  cases opened <;> rfl

/-- What is read in front of more is read in front of less. -/
theorem mono (h : Reads before t f) (hb : ∀ rest, after rest → before rest) : Reads after t f := by
  obtain ⟨ms, hms, hf⟩ := h
  exact ⟨ms, fun done rest hr => hms done rest (hb rest hr), hf⟩

/-- **Texts behind each other change the members one after the other.** -/
theorem append (hs : Reads before s f) (ht : Reads after t g)
    (hb : ∀ rest, after rest → before (t ++ rest)) : Reads after (s ++ t) (g ∘ f) := by
  obtain ⟨ms, hms, hf⟩ := hs
  obtain ⟨ns, hns, hg⟩ := ht
  refine ⟨ms ++ ns, fun done rest hr => ?_, fun b => ?_⟩
  · rw [List.append_assoc, hms done _ (hb rest hr), hns _ rest hr, List.reverse_append,
      List.append_assoc]
  · rw [List.foldlM_append, hf, Option.bind_eq_bind, Option.bind_some, hg, Builder.within_within]

/-- **A document is read** as what its text adds behind a byte order mark. -/
theorem document (h : Reads AtTag ((dropStart? [mark] t).getD t) f) :
    read t = .ok (.object (Json.Members.swapRemove contentKey (f []))) := by
  obtain ⟨ms, hms, hf⟩ := h
  have hpieces : Markup.ofText? t = some ms := by
    have hall := hms [] [] rfl
    rw [List.append_nil, List.append_nil] at hall
    rw [Markup.ofText?, hall, piecesOnto?, List.reverse_reverse]
  rw [Xml.read, hpieces, Option.bind_some, hf]
  rfl

/-- A document that begins with a tag is read as what its text adds. -/
theorem document_of_atTag (h : Reads AtTag t f) (htag : AtTag t) :
    read t = .ok (.object (Json.Members.swapRemove contentKey (f []))) := by
  have hmark : (dropStart? [mark] t).getD t = t := by
    rw [dropStart?_mark htag, Option.getD_none]
  exact document (hmark.symm ▸ h)

/-- **A run of text adds the value of its piece** under `content`. -/
theorem piece {u : Text} (hlt : '<' ∉ t) (hrun : run? t = some [.text u]) :
    Reads AtTag t (accumulate contentKey (coerce u)) := by
  refine ⟨[.text u], fun done rest hr => ?_, fun b => ?_⟩
  · exact piecesOnto?_run hlt hrun hr done
  · rw [List.foldlM_cons, Builder.step, Builder.add_eq_within]
    rfl

/-- **A text adds its value** under `content`. -/
theorem run (hne : t ≠ []) (hf : isFlush t = true) :
    Reads AtTag (escape t) (accumulate contentKey (coerce t)) := by
  refine piece (lt_notMem_escape t) ?_
  have hempty : (escape t).isEmpty = false := List.isEmpty_eq_false_iff.2 (escape_ne_nil hne)
  rw [run?, trimBy_eq_self (isFlush_escape hf), hempty, unescape?_escape]
  rfl

/-- The text of a scalar adds the scalar under `content`. -/
theorem run_plain {v : Json} (hv : isScalar v = true) (hne : v.plain ≠ []) :
    Reads AtTag (escape v.plain) (accumulate contentKey v) := by
  obtain ⟨hc, hf⟩ := coerce_plain hv hne
  have hr := run hne hf
  rwa [hc] at hr

variable {name : Text} (h : isLabel name = true)
include h

/-- **An element adds the value of its members** under its name. -/
theorem wrap (ht : Reads AtTag t f) :
    Reads Anything (wrap name t) (accumulate name (elementValue (f []))) := by
  obtain ⟨ms, hms, hf⟩ := ht
  refine ⟨.opening name [] :: (ms ++ [.closing name]), fun done rest hr => ?_, fun b => ?_⟩
  · have hc : AtTag ('<' :: '/' :: (name ++ '>' :: rest)) := rfl
    have hclosing : markup? ('/' :: (name ++ '>' :: rest)) = some (.closing name, rest) :=
      markup?_closing (isWord_of_isLabel h) (show isPad [] = true from rfl) rest
    have he : Xml.wrap name t ++ rest =
        '<' :: ((Tag.bare name).text ++ '>' :: (t ++ '<' :: '/' :: (name ++ '>' :: rest))) := by
      simp [Xml.wrap]
    rw [he, piecesOnto?_tag (markup?_opening (Tag.isValid_bare h) _), hms _ _ hc,
      piecesOnto?_tag hclosing]
    simp [Tag.bare, Tag.pairs]
  · have hopen : Builder.step b (.opening name []) =
        some ⟨b.root, ⟨name, []⟩ :: b.opened⟩ := rfl
    rw [List.foldlM_cons, hopen, Option.bind_eq_bind, Option.bind_some, List.foldlM_append, hf,
      Option.bind_eq_bind, Option.bind_some, List.foldlM_cons, Builder.within, Builder.step]
    simp only [if_true, Builder.add_eq_within]
    rfl

/-- An element with a text alone adds the value of the text under its name. -/
theorem text (hne : t ≠ []) (hf : isFlush t = true) :
    Reads Anything (Xml.wrap name (escape t)) (accumulate name (coerce t)) :=
  wrap h (run hne hf)

/-- An element without content adds the empty string under its name. -/
theorem empty :
    Reads Anything ('<' :: (name ++ ['/', '>'])) (accumulate name (.string [])) := by
  refine ⟨[.empty name []], fun done rest _ => ?_, fun b => ?_⟩
  · have he : '<' :: (name ++ ['/', '>']) ++ rest =
        '<' :: ((Tag.bare name).text ++ '/' :: '>' :: rest) := by
      simp
    rw [he, piecesOnto?_tag (markup?_empty (Tag.isValid_bare h) rest)]
    rfl
  · rw [List.foldlM_cons, Builder.step, Builder.add_eq_within]
    rfl

/-- An element with the text of a scalar adds the scalar under its name. -/
theorem leaf {v : Json} (hv : isScalar v = true) :
    Reads Anything (leaf name v.plain) (accumulate name v) := by
  unfold Xml.leaf
  split
  · next he =>
    rw [eq_empty_of_plain hv (List.isEmpty_iff.1 he)]
    exact empty h
  · next hne =>
    exact wrap h (run_plain hv (by simpa using hne))

end Reads

end SessionGateway.Xml
