/-
  Tags — the markup of elements as documents write it.

  A tag is a name, attributes with white space in front, and white space at its end.  An attribute
  has white space around its equals sign and a value between quotation marks of either kind, in
  which the mark itself is written as a reference.

  * `Skips`: a text that the end of a tag is looked for behind;
  * `attributesOnto?_text`: attributes of distinct names are read as their names and values;
  * `markup?_opening`, `markup?_empty`, `markup?_closing`: what the three kinds of tags are read as.
-/
import SessionGateway.Proofs.Xml.Spelling

namespace SessionGateway.Xml

/-! ## Names -/

/-- The characters that end a word in a tag, or the tag, or begin a value. -/
def tagChars : Text := [' ', '\t', '\n', '\r', '>', '\x22', '\x27']

/-- The characters that begin a declaration, an instruction and the end of an element. -/
def leadChars : Text := ['!', '?', '/']

/-- Whether a text stands in a tag as one word. -/
def isWord (t : Text) : Bool := !t.isEmpty && t.all (!tagChars.contains ·)

/-- Whether a word can name an element: it does not begin like another kind of markup, nor end like
    an element without content. The names of XML are among these. -/
def isLabel (t : Text) : Bool :=
  isWord t && t.head?.all (!leadChars.contains ·) && t.getLast? != some '/'

/-- Whether a word can name an attribute. -/
def isKey (t : Text) : Bool := isWord t && !t.contains '='

section
variable {t : Text} (h : isWord t = true)
include h

theorem ne_of_mem_word {c d : Char} (hc : c ∈ t) (hd : d ∈ tagChars) : c ≠ d := by
  simp only [isWord, Bool.and_eq_true, List.all_eq_true, Bool.not_eq_true', List.contains_eq_mem,
    decide_eq_false_iff_not] at h
  rintro rfl
  exact h.2 _ hc hd

theorem isSpace_of_mem_word {c : Char} (hc : c ∈ t) : Text.isSpace c = false := by
  have hs : c ≠ ' ' := ne_of_mem_word h hc (by decide)
  have ht : c ≠ '\t' := ne_of_mem_word h hc (by decide)
  have hn : c ≠ '\n' := ne_of_mem_word h hc (by decide)
  have hr : c ≠ '\r' := ne_of_mem_word h hc (by decide)
  simp [Text.isSpace, hs, ht, hn, hr]

theorem word_eq_cons : ∃ c u, t = c :: u := by
  cases t with
  | nil => cases h
  | cons c u => exact ⟨c, u, rfl⟩

theorem word_eq_concat : ∃ u c, t = u ++ [c] ∧ c ∈ t := by
  obtain ⟨c, u, rfl⟩ := word_eq_cons h
  obtain ⟨v, d, he⟩ := (List.eq_nil_or_concat (c :: u)).resolve_left (List.cons_ne_nil c u)
  rw [List.concat_eq_append] at he
  exact ⟨v, d, he, he ▸ List.mem_append_right v List.mem_cons_self⟩

end

theorem isWord_of_isLabel {name : Text} (h : isLabel name = true) : isWord name = true := by
  simp only [isLabel, Bool.and_eq_true] at h
  exact h.1.1

theorem isWord_of_isKey {name : Text} (h : isKey name = true) : isWord name = true := by
  simp only [isKey, Bool.and_eq_true] at h
  exact h.1

/-! ## Attributes and tags -/

/-- Whether a text is white space alone. -/
def isPad (t : Text) : Bool := t.all Text.isSpace

/-- An attribute as a document writes it. -/
structure Attribute where
  /-- The white space in front of the name. -/
  before : Text
  name : Text
  /-- The white space in front of the equals sign. -/
  beforeSign : Text
  /-- The white space behind the equals sign. -/
  afterSign : Text
  /-- The quotation mark around the value. -/
  mark : Char
  value : List Glyph

namespace Attribute

/-- The text of an attribute behind the white space in front of it. -/
def inner (a : Attribute) : Text :=
  a.name ++ (a.beforeSign ++ '=' :: (a.afterSign ++ a.mark :: (spelled a.value ++ [a.mark])))

/-- The text of an attribute. -/
def text (a : Attribute) : Text := a.before ++ a.inner

/-- The name of an attribute and the text that its value stands for. -/
def pair (a : Attribute) : Text × Text := (a.name, chars a.value)

/-- Whether an attribute has white space in front, a name, and a value without its mark. -/
def isValid (a : Attribute) : Bool :=
  !a.before.isEmpty && isPad a.before && isKey a.name && isPad a.beforeSign &&
    isPad a.afterSign && (a.mark == '\x22' || a.mark == '\x27') &&
    a.value.all (Glyph.isValid ['&', a.mark])

end Attribute

/-- A tag that opens an element, as a document writes it. -/
structure Tag where
  name : Text
  attributes : List Attribute
  /-- The white space at the end of the tag. -/
  after : Text

namespace Tag

/-- The text of a tag between `<` and what closes it. -/
def text (t : Tag) : Text := t.name ++ (t.attributes.flatMap Attribute.text ++ t.after)

/-- The names of the attributes and the texts that their values stand for. -/
def pairs (t : Tag) : List (Text × Text) := t.attributes.map Attribute.pair

/-- Whether a tag has a name and attributes of distinct names. -/
def isValid (t : Tag) : Bool :=
  isLabel t.name && t.attributes.all Attribute.isValid &&
    decide (t.attributes.map (·.name)).Nodup && isPad t.after

/-- A tag that is a name alone. -/
def bare (name : Text) : Tag := ⟨name, [], []⟩

theorem isValid_bare {name : Text} (h : isLabel name = true) : (bare name).isValid = true := by
  simp [isValid, bare, h, isPad]

@[simp] theorem text_bare (name : Text) : (bare name).text = name := by
  simp [text, bare]

end Tag

/-! ## Where a tag ends -/

/-- The end of a tag is looked for behind the text. -/
def Skips (s : Text) : Prop :=
  ∀ rest, tagEnd? none (s ++ rest) = (tagEnd? none rest).map fun (body, r) => (s ++ body, r)

namespace Skips

variable {s t : Text}

theorem nil : Skips [] := fun _ => Option.map_id'.symm

theorem append (hs : Skips s) (ht : Skips t) : Skips (s ++ t) := by
  intro rest
  rw [List.append_assoc, hs, ht, Option.map_map]
  congr 1
  funext x
  simp

/-- A text without brackets and quotation marks. -/
theorem of_quiet (h : ∀ c ∈ s, c ≠ '>' ∧ c ≠ '\x22' ∧ c ≠ '\x27') : Skips s := by
  induction s with
  | nil => exact nil
  | cons c s ih =>
    rw [List.forall_mem_cons] at h
    intro rest
    simp [tagEnd?, h.1, ih h.2 rest, Function.comp_def]

/-- A text between quotation marks, in which anything but the mark may stand. -/
theorem quoted {mark : Char} (hm : mark = '\x22' ∨ mark = '\x27') (h : mark ∉ s) :
    Skips (mark :: (s ++ [mark])) := by
  have hinside : ∀ rest, tagEnd? (some mark) (s ++ mark :: rest) =
      (tagEnd? none rest).map fun (body, r) => (s ++ mark :: body, r) := by
    intro rest
    induction s with
    | nil => simp [tagEnd?]
    | cons c s ih =>
      rw [List.mem_cons, not_or] at h
      simp [tagEnd?, Ne.symm h.1, ih h.2, Function.comp_def]
  have hne : mark ≠ '>' := by rcases hm with rfl | rfl <;> decide
  intro rest
  simp [tagEnd?, hne, hm, hinside, Function.comp_def]

/-- **A tag ends** at the bracket behind a text that is skipped. -/
theorem tagEnd? (h : Skips s) (rest : Text) : tagEnd? none (s ++ '>' :: rest) = some (s, rest) := by
  rw [h]
  simp [Xml.tagEnd?]

end Skips

theorem skips_pad {t : Text} (h : isPad t = true) : Skips t := by
  refine .of_quiet fun c hc => ?_
  rcases Text.isSpace_iff.1 (List.all_eq_true.1 h c hc) with rfl | rfl | rfl | rfl <;> decide

theorem skips_word {t : Text} (h : isWord t = true) : Skips t :=
  .of_quiet fun _ hc => ⟨ne_of_mem_word h hc (by decide), ne_of_mem_word h hc (by decide),
    ne_of_mem_word h hc (by decide)⟩

/-! ## Attributes -/

theorem dropWhile_pad {t u : Text} (h : isPad t = true)
    (hu : u.head?.all (!Text.isSpace ·) = true) : (t ++ u).dropWhile Text.isSpace = u :=
  (span_append (List.all_eq_true.1 h) hu).2

section
variable {a : Attribute} (h : a.isValid = true)
include h

theorem Attribute.mark_cases : a.mark = '\x22' ∨ a.mark = '\x27' := by
  simp only [isValid, Bool.and_eq_true, Bool.or_eq_true, beq_iff_eq] at h
  exact h.1.2

theorem Attribute.mark_notMem : a.mark ∉ spelled a.value := by
  have hm := mark_cases h
  simp only [isValid, Bool.and_eq_true, List.all_eq_true] at h
  have hr : isReferenceChar a.mark = false := by rcases hm with hm | hm <;> rw [hm] <;> decide
  have ha : a.mark ≠ '&' := by rcases hm with hm | hm <;> rw [hm] <;> decide
  have hs : a.mark ≠ ';' := by rcases hm with hm | hm <;> rw [hm] <;> decide
  exact notMem_spelled h.2 (by simp) hr ha hs

theorem Attribute.skips_text : Skips a.text := by
  have hquoted := Skips.quoted (mark_cases h) (mark_notMem h)
  simp only [isValid, Bool.and_eq_true] at h
  obtain ⟨⟨⟨⟨⟨⟨-, hbefore⟩, hname⟩, hsign⟩, hsign'⟩, -⟩, -⟩ := h
  have hequals : Skips ['='] := .of_quiet (by decide)
  have hall := (skips_pad hbefore).append ((skips_word (isWord_of_isKey hname)).append
    ((skips_pad hsign).append (hequals.append ((skips_pad hsign').append hquoted))))
  simpa [text, inner] using hall

/-- **An attribute** is read as its name and the text between its quotation marks. -/
theorem Attribute.attribute?_inner (rest : Text) :
    attribute? (a.inner ++ rest) = some ((a.name, spelled a.value), rest) := by
  have hmark := mark_cases h
  have hcut := cut?_append_cons (mark_notMem h) rest
  simp only [isValid, Bool.and_eq_true] at h
  obtain ⟨⟨⟨⟨⟨-, hname⟩, hsign⟩, hsign'⟩, -⟩, -⟩ := h
  have hword := isWord_of_isKey hname
  have hin : ∀ c ∈ a.name, inName c = true := fun c hc => by
    have hne : c ≠ '=' := by
      rintro rfl
      simp [isKey, hc] at hname
    simp [inName, hne, isSpace_of_mem_word hword hc]
  have hspace : ∀ c ∈ a.beforeSign, inName c = false := fun c hc => by
    simp [inName, List.all_eq_true.1 hsign c hc]
  obtain ⟨c, t, he⟩ := word_eq_cons hword
  let value := a.mark :: (spelled a.value ++ a.mark :: rest)
  let signed := a.beforeSign ++ '=' :: (a.afterSign ++ value)
  have hstop : signed.head?.all (!inName ·) = true := by
    show (a.beforeSign ++ _).head?.all _ = true
    cases hb : a.beforeSign with
    | nil => rfl
    | cons d u => simpa using hspace d (hb ▸ List.mem_cons_self)
  have hspan := span_append (fun d hd => hin d (he ▸ List.mem_cons_of_mem c hd)) hstop
  have hequals : signed.dropWhile Text.isSpace = '=' :: (a.afterSign ++ value) :=
    dropWhile_pad hsign rfl
  have hvalue : (a.afterSign ++ value).dropWhile Text.isSpace = value := by
    refine dropWhile_pad hsign' ?_
    show (!Text.isSpace a.mark) = true
    rcases hmark with hm | hm <;> rw [hm] <;> decide
  have htext : a.inner ++ rest = c :: (t ++ signed) := by
    simp [inner, he, signed, value]
  rw [htext, attribute?, hspan.2, hspan.1, hequals]
  simp only [hvalue, value, if_pos hmark, hcut, he, Option.map_some]

/-- The white space in front of an attribute is passed over. -/
theorem Attribute.attribute?_text (rest : Text) :
    attribute? ((a.text ++ rest).dropWhile Text.isSpace) =
      some ((a.name, spelled a.value), rest) := by
  have hread := attribute?_inner h rest
  simp only [isValid, Bool.and_eq_true] at h
  obtain ⟨⟨⟨⟨⟨⟨-, hbefore⟩, hname⟩, -⟩, -⟩, -⟩, -⟩ := h
  have hword := isWord_of_isKey hname
  obtain ⟨c, t, he⟩ := word_eq_cons hword
  have hc : Text.isSpace c = false := isSpace_of_mem_word hword (he ▸ List.mem_cons_self)
  have hhead : (a.inner ++ rest).head?.all (!Text.isSpace ·) = true := by
    simp [inner, he, hc]
  rw [text, List.append_assoc, dropWhile_pad hbefore hhead, hread]

/-- An attribute begins with white space. -/
theorem Attribute.head?_text (rest : Text) :
    ∃ c, (a.text ++ rest).head? = some c ∧ Text.isSpace c = true := by
  simp only [isValid, Bool.and_eq_true, Bool.not_eq_true', List.isEmpty_eq_false_iff] at h
  obtain ⟨⟨⟨⟨⟨⟨hne, hbefore⟩, -⟩, -⟩, -⟩, -⟩, -⟩ := h
  cases hb : a.before with
  | nil => exact absurd hb hne
  | cons c t =>
    have hc : c ∈ a.before := hb ▸ List.mem_cons_self
    exact ⟨c, by simp [text, hb], List.all_eq_true.1 hbefore c hc⟩

end

theorem attributesOnto?_cons {done : List (Text × Text)} {t name value v rest : Text}
    (ha : attribute? (t.dropWhile Text.isSpace) = some ((name, value), rest))
    (hn : name ∉ done.map (·.1)) (hv : unescape? value = some v) :
    attributesOnto? done t = attributesOnto? (done ++ [(name, v)]) rest := by
  have hany : done.any (·.1 == name) = false := by
    refine List.any_eq_false.2 fun m hm => ?_
    simpa using fun he : m.1 = name => hn (he ▸ List.mem_map_of_mem hm)
  rw [attributesOnto?]
  split
  · next heq =>
    rw [ha] at heq
    cases heq
    rw [hany, if_neg Bool.false_ne_true, hv, Option.bind_some]
  · next heq =>
    rw [ha] at heq
    cases heq

theorem attributesOnto?_pad {t : Text} (h : isPad t = true) (done : List (Text × Text)) :
    attributesOnto? done t = some done := by
  have hdrop : t.dropWhile Text.isSpace = [] := by
    have hall := dropWhile_pad (u := []) h rfl
    rwa [List.append_nil] at hall
  rw [attributesOnto?]
  split
  · next heq =>
    rw [hdrop] at heq
    cases heq
  · rw [hdrop]
    rfl

/-- **Attributes of distinct names** are read as their names and the texts of their values. -/
theorem attributesOnto?_text {as : List Attribute} {after : Text} {done : List (Text × Text)}
    (h : ∀ a ∈ as, a.isValid = true) (hafter : isPad after = true)
    (hd : (done.map (·.1) ++ as.map (·.name)).Nodup) :
    attributesOnto? done (as.flatMap Attribute.text ++ after) =
      some (done ++ as.map Attribute.pair) := by
  induction as generalizing done with
  | nil => simpa using attributesOnto?_pad hafter done
  | cons a as ih =>
    rw [List.forall_mem_cons] at h
    have hread := Attribute.attribute?_text h.1 (as.flatMap Attribute.text ++ after)
    have hvalue : unescape? (spelled a.value) = some (chars a.value) := by
      have hvalid := h.1
      simp only [Attribute.isValid, Bool.and_eq_true, List.all_eq_true] at hvalid
      exact unescape?_spelled hvalid.2 List.mem_cons_self
    have hnew : a.name ∉ done.map (·.1) := by
      rw [List.map_cons, List.nodup_append] at hd
      exact fun hm => hd.2.2 a.name hm a.name List.mem_cons_self rfl
    have hrest : ((done ++ [a.pair]).map (·.1) ++ as.map (·.name)).Nodup := by
      simpa [Attribute.pair] using hd
    rw [List.flatMap_cons, List.append_assoc, attributesOnto?_cons hread hnew hvalue]
    exact (ih h.2 hrest).trans (by simp)

/-! ## Tags -/

theorem dropEnd?_of_getLast? {c : Char} {t : Text} (h : t.getLast? ≠ some c) :
    dropEnd? [c] t = none := by
  refine dropEnd?_eq_none_iff.2 ?_
  rintro ⟨u, rfl⟩
  exact h (List.getLast?_concat ..)

/-- A tag that is no declaration, instruction or end of an element. -/
theorem markup?_cons {c : Char} {t body rest : Text} {m : Markup} (hb : c ≠ '!') (hq : c ≠ '?')
    (hs : c ≠ '/') (he : tagEnd? none (c :: t) = some (body, rest)) (hm : tag? body = some m) :
    markup? (c :: t) = some (m, rest) := by
  unfold markup?
  split
  · next heq => exact absurd (List.cons.inj heq).1 hb
  · next heq => exact absurd (List.cons.inj heq).1 hq
  · next heq => exact absurd (List.cons.inj heq).1 hs
  · next heq => cases heq
  · rw [he, Option.bind_some]
    simp only [hm, Option.map_some]

section
variable {tag : Tag} (h : tag.isValid = true)
include h

theorem Tag.isLabel_name : isLabel tag.name = true := by
  simp only [isValid, Bool.and_eq_true] at h
  exact h.1.1.1

theorem Tag.skips_text : Skips tag.text := by
  simp only [isValid, Bool.and_eq_true, List.all_eq_true] at h
  obtain ⟨⟨⟨hname, hall⟩, -⟩, hafter⟩ := h
  have hattributes : ∀ as : List Attribute, (∀ a ∈ as, a.isValid = true) →
      Skips (as.flatMap Attribute.text) := by
    intro as has
    induction as with
    | nil => exact .nil
    | cons a as ih =>
      rw [List.forall_mem_cons] at has
      exact (Attribute.skips_text has.1).append (ih has.2)
  have hword := skips_word (isWord_of_isLabel hname)
  exact hword.append ((hattributes _ hall).append (skips_pad hafter))

/-- What stands behind the name of a tag is nothing or begins with white space. -/
theorem Tag.head?_attributes :
    (tag.attributes.flatMap Attribute.text ++ tag.after).head?.all Text.isSpace = true := by
  simp only [isValid, Bool.and_eq_true, List.all_eq_true] at h
  obtain ⟨⟨⟨-, hall⟩, -⟩, hafter⟩ := h
  cases has : tag.attributes with
  | nil =>
    cases ha : tag.after with
    | nil => rfl
    | cons c t => exact List.all_eq_true.1 hafter c (ha ▸ List.mem_cons_self)
  | cons a as =>
    obtain ⟨c, hc, hs⟩ := Attribute.head?_text (hall a (has ▸ List.mem_cons_self))
      (as.flatMap Attribute.text ++ tag.after)
    rw [List.flatMap_cons, List.append_assoc, hc]
    exact hs

/-- A tag does not end with a slash. -/
theorem Tag.getLast?_text : tag.text.getLast? ≠ some '/' := by
  have hlast : tag.name.getLast? ≠ some '/' := by
    have hname := isLabel_name h
    simp only [isLabel, Bool.and_eq_true, bne_iff_ne] at hname
    exact hname.2
  simp only [isValid, Bool.and_eq_true, List.all_eq_true] at h
  obtain ⟨⟨⟨-, hall⟩, -⟩, hafter⟩ := h
  rcases List.eq_nil_or_concat tag.after with ha | ⟨u, c, ha⟩
  · rcases List.eq_nil_or_concat tag.attributes with has | ⟨as, a, has⟩
    · simpa [text, ha, has] using hlast
    · have hmark : a.mark ≠ '/' := by
        have hm := Attribute.mark_cases (hall a (by simp [has]))
        rcases hm with hm | hm <;> rw [hm] <;> decide
      have hlast : a.text.getLast? = some a.mark := by
        simp [Attribute.text, Attribute.inner, List.getLast?_cons]
      simp [text, ha, has, hlast, hmark]
  · have hc : Text.isSpace c = true := List.all_eq_true.1 hafter c (by simp [ha])
    have hne : c ≠ '/' := fun he => absurd (he ▸ hc) (by decide)
    simp [text, ha, hne]

/-- The parts of a tag, behind which a slash may have stood. -/
theorem Tag.parts :
    tag.text.takeWhile (!Text.isSpace ·) = tag.name ∧
      attributesOnto? [] (tag.text.dropWhile (!Text.isSpace ·)) = some tag.pairs := by
  have hname : ∀ c ∈ tag.name, (!Text.isSpace c) = true := fun c hc => by
    rw [isSpace_of_mem_word (isWord_of_isLabel (isLabel_name h)) hc]
    rfl
  have hhead : (tag.attributes.flatMap Attribute.text ++ tag.after).head?.all
      (! !Text.isSpace ·) = true := by
    simpa using head?_attributes h
  have hspan := span_append hname hhead
  simp only [isValid, Bool.and_eq_true, List.all_eq_true, decide_eq_true_eq] at h
  obtain ⟨⟨⟨-, hall⟩, hd⟩, hafter⟩ := h
  refine ⟨hspan.1, ?_⟩
  rw [text, hspan.2]
  exact attributesOnto?_text hall hafter hd

theorem tag?_text : tag? tag.text = some (.opening tag.name tag.pairs) := by
  simp [tag?, dropEnd?_of_getLast? (Tag.getLast?_text h), Tag.parts h]

theorem tag?_text_slash : tag? (tag.text ++ ['/']) = some (.empty tag.name tag.pairs) := by
  simp [tag?, dropEnd?_eq_some_iff.2 rfl, Tag.parts h]

theorem Tag.text_eq_cons : ∃ c t, tag.text = c :: t ∧ c ≠ '!' ∧ c ≠ '?' ∧ c ≠ '/' := by
  have hname := isLabel_name h
  obtain ⟨c, t, he⟩ := word_eq_cons (isWord_of_isLabel hname)
  simp only [isLabel, leadChars, he, Bool.and_eq_true, List.head?_cons, Option.all_some,
    Bool.not_eq_true', List.contains_eq_mem, decide_eq_false_iff_not, List.mem_cons,
    List.not_mem_nil, or_false, not_or] at hname
  exact ⟨c, t ++ (tag.attributes.flatMap Attribute.text ++ tag.after), by simp [text, he],
    hname.1.2⟩

/-- **A tag opens an element** with its name and attributes. -/
theorem markup?_opening (rest : Text) :
    markup? (tag.text ++ '>' :: rest) = some (.opening tag.name tag.pairs, rest) := by
  have he := (Tag.skips_text h).tagEnd? rest
  have ht := tag?_text h
  obtain ⟨c, t, htext, hb, hq, hs⟩ := Tag.text_eq_cons h
  rw [htext] at he ht ⊢
  exact markup?_cons hb hq hs he ht

/-- **A tag with a slash at its end** opens and closes an element. -/
theorem markup?_empty (rest : Text) :
    markup? (tag.text ++ '/' :: '>' :: rest) = some (.empty tag.name tag.pairs, rest) := by
  have hslash : Skips ['/'] := .of_quiet (by decide)
  have he := ((Tag.skips_text h).append hslash).tagEnd? rest
  have ht := tag?_text_slash h
  obtain ⟨c, t, htext, hb, hq, hs⟩ := Tag.text_eq_cons h
  rw [htext, List.cons_append] at he ht
  rw [htext]
  exact markup?_cons hb hq hs (by simpa using he) ht

end

/-- **A closing tag** has a name, and white space behind it. -/
theorem markup?_closing {name after : Text} (h : isWord name = true) (hp : isPad after = true)
    (rest : Text) :
    markup? ('/' :: (name ++ (after ++ '>' :: rest))) = some (.closing name, rest) := by
  have he := ((skips_word h).append (skips_pad hp)).tagEnd? rest
  rw [List.append_assoc] at he
  obtain ⟨t, c, hn, hc⟩ := word_eq_concat h
  have hspace : Text.isSpace c = false := isSpace_of_mem_word h hc
  have hname : closingName (name ++ after) = name := by
    have hall : (name ++ after).all Text.isSpace = false := by simp [hn, hspace]
    have hlast : name.getLast?.all (!Text.isSpace ·) = true := by simp [hn, hspace]
    rw [closingName, hall, if_neg Bool.false_ne_true, trimEndBy_append (List.all_eq_true.1 hp),
      trimEndBy_of_last hlast]
  rw [markup?, he, Option.map_some]
  simp only [hname]

end SessionGateway.Xml
