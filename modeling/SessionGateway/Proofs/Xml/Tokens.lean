/-
  Tokens — documents as sequences of tags, runs of text, sections, comments and declarations.

  A document is written from its tokens, one behind the other.  Two runs of text next to each
  other would be one, so they are kept apart (`WellFormed`).

  * `piecesOnto?_token`: a token is read as its pieces, a run of text in front of a tag;
  * `piecesOnto?_written`: the pieces of a well-formed sequence are those of its tokens;
  * `ofText?_written`: and so are the pieces of a document, but for a byte order mark in front.
-/
import Mathlib.Data.List.Chain
import SessionGateway.Proofs.Xml.Reading

namespace SessionGateway.Xml

/-! ## Tokens -/

/-- Whether the angle brackets of a text are in pairs, behind `depth` others that are open. -/
def isNested : Nat → Text → Bool
  | depth, [] => depth == 0
  | depth, c :: t =>
    if c = '>' then depth != 0 && isNested (depth - 1) t
    else isNested (if c = '<' then depth + 1 else depth) t

/-- A part of a document that has no parts of its own. -/
inductive Leaf where
  /-- A tag that opens and closes an element. -/
  | empty (tag : Tag)
  /-- A run of text. -/
  | run (gs : List Glyph)
  /-- A section of unparsed text. -/
  | unparsed (t : Text)
  | comment (t : Text)
  /-- The XML declaration or a processing instruction. -/
  | instruction (t : Text)
  /-- A document type declaration. -/
  | doctype (t : Text)

namespace Leaf

/-- The text of a leaf. -/
def text : Leaf → Text
  | empty tag => '<' :: (tag.text ++ ['/', '>'])
  | run gs => spelled gs
  | unparsed t => "<![CDATA[".toList ++ (t ++ "]]>".toList)
  | comment t => "<!--".toList ++ (t ++ "-->".toList)
  | instruction t => "<?".toList ++ (t ++ "?>".toList)
  | doctype t => "<!DOCTYPE".toList ++ (t ++ ['>'])

/-- Whether a leaf can be told from what stands around it. -/
def isValid : Leaf → Bool
  | empty tag => tag.isValid
  | run gs => gs.all (Glyph.isValid ['<', '&'])
  | unparsed t => !occursIn "]]>".toList t
  | comment t => !occursIn "-->".toList t
  | instruction t => t.head? != some '>' && !occursIn "?>".toList t
  | doctype t => t.any (!Text.isSpace ·) && isNested 0 t

/-- What a leaf is read as. -/
def pieces : Leaf → List Markup
  | empty tag => [.empty tag.name tag.pairs]
  | run gs => if (trimmed gs).isEmpty then [] else [.text (chars (trimmed gs))]
  | unparsed t => [.unparsed t]
  | comment _ | instruction _ | doctype _ => [.aside]

/-- The leaf without a byte order mark that its text begins with. -/
def unmarked : Leaf → Leaf
  | run (.plain c :: gs) => if c = mark then run gs else run (.plain c :: gs)
  | l => l

end Leaf

/-- A token of a document. -/
inductive Token where
  | opening (tag : Tag)
  /-- A tag that closes an element, with white space behind the name. -/
  | closing (name after : Text)
  | leaf (l : Leaf)

namespace Token

/-- The text of a token. -/
def text : Token → Text
  | opening tag => '<' :: (tag.text ++ ['>'])
  | closing name after => '<' :: '/' :: (name ++ (after ++ ['>']))
  | leaf l => l.text

/-- Whether a token can be told from what stands around it. -/
def isValid : Token → Bool
  | opening tag => tag.isValid
  | closing name after => isLabel name && isPad after
  | leaf l => l.isValid

/-- What a token is read as. -/
def pieces : Token → List Markup
  | opening tag => [.opening tag.name tag.pairs]
  | closing name _ => [.closing name]
  | leaf l => l.pieces

/-- Whether a token is a run of text. -/
def isRun : Token → Bool
  | leaf (.run _) => true
  | _ => false

/-- The token without a byte order mark that its text begins with. -/
def unmarked : Token → Token
  | leaf l => leaf l.unmarked
  | t => t

end Token

/-- Not both are runs of text. -/
def Apart (s t : Token) : Prop := (s.isRun && t.isRun) = false

instance : DecidableRel Apart := fun _ _ => inferInstanceAs (Decidable (_ = _))

/-- The text of a sequence of tokens. -/
def written (ts : List Token) : Text := ts.flatMap Token.text

/-- A sequence of tokens that are read as they are written. -/
structure WellFormed (ts : List Token) : Prop where
  valid : ∀ t ∈ ts, t.isValid = true
  apart : ts.IsChain Apart

theorem WellFormed.infix {ss ts : List Token} (h : WellFormed ts) (hs : ss <:+: ts) :
    WellFormed ss :=
  ⟨fun t ht => h.valid t (hs.subset ht), h.apart.infix hs⟩

/-! ## Reading a token -/

section
variable {t : Text} (rest : Text)

theorem declaration?_unparsed (h : occursIn "]]>".toList t = false) :
    declaration? ("[CDATA[".toList ++ (t ++ "]]>".toList ++ rest)) = some (.unparsed t, rest) := by
  have hnot : ¬ [']', ']'] ++ ['>'] <:+: t := (occursIn_eq_false_iff (by decide)).1 h
  have hcut : cutAt? "]]>".toList (t ++ "]]>".toList ++ rest) = some (t, rest) :=
    cutAt?_append_last (by decide) hnot rest
  rw [declaration?, dropStart?_self_append]
  simp only [hcut, Option.map_some]

theorem declaration?_comment (h : occursIn "-->".toList t = false) :
    declaration? ("--".toList ++ (t ++ "-->".toList ++ rest)) = some (.aside, rest) := by
  have hnot : ¬ ['-', '-'] ++ ['>'] <:+: t := (occursIn_eq_false_iff (by decide)).1 h
  have hcut : cutAt? "-->".toList (t ++ "-->".toList ++ rest) = some (t, rest) :=
    cutAt?_append_last (by decide) hnot rest
  have hno : dropStart? "[CDATA[".toList ("--".toList ++ (t ++ "-->".toList ++ rest)) = none := rfl
  rw [declaration?, hno, dropStart?_self_append]
  simp only [hcut, Option.map_some]

theorem instruction?_text (hh : t.head? ≠ some '>') (h : occursIn "?>".toList t = false) :
    instruction? (t ++ "?>".toList ++ rest) = some (.aside, rest) := by
  have hnot : ¬ ['?'] ++ ['>'] <:+: t := (occursIn_eq_false_iff (by decide)).1 h
  have hcut : cutAt? "?>".toList (t ++ "?>".toList ++ rest) = some (t, rest) :=
    cutAt?_append_last (by decide) hnot rest
  have hhead : (t ++ "?>".toList ++ rest).head? ≠ some '>' := by
    cases t with
    | nil => exact fun he => absurd (Option.some.inj he) (by decide)
    | cons c t => exact hh
  rw [instruction?, if_neg hhead, hcut, Option.map_some]

end

theorem balanced?_of_isNested {depth : Nat} {t : Text} (h : isNested depth t = true)
    (rest : Text) : balanced? depth (t ++ '>' :: rest) = some (t, rest) := by
  induction t generalizing depth with
  | nil =>
    have hd : depth = 0 := by simpa [isNested] using h
    simp [balanced?, hd]
  | cons c t ih =>
    rw [isNested] at h
    rw [List.cons_append, balanced?]
    split
    · next hc =>
      rw [if_pos hc, Bool.and_eq_true, bne_iff_ne] at h
      rw [if_neg h.1, ih h.2]
      rfl
    · next hc =>
      rw [if_neg hc] at h
      rw [ih h]
      rfl

theorem declaration?_doctype {t : Text} (hn : t.any (!Text.isSpace ·) = true)
    (h : isNested 0 t = true) (rest : Text) :
    declaration? ("DOCTYPE".toList ++ (t ++ '>' :: rest)) = some (.aside, rest) := by
  have hnested : isNested 0 ("DOCTYPE".toList ++ t) = true := h
  have hbody : balanced? 0 ("DOCTYPE".toList ++ t ++ '>' :: rest) =
      some ("DOCTYPE".toList ++ t, rest) := balanced?_of_isNested hnested rest
  have hsection : dropStart? "[CDATA[".toList ("DOCTYPE".toList ++ (t ++ '>' :: rest)) = none := rfl
  have hcomment : dropStart? "--".toList ("DOCTYPE".toList ++ (t ++ '>' :: rest)) = none := rfl
  have hdoctype : isDoctype ("DOCTYPE".toList ++ t) = true := hn
  rw [declaration?, hsection, hcomment]
  simp only [← List.append_assoc, hbody, Option.bind_some, hdoctype, if_true]

/-- Every token but a run of text is a piece between angle brackets. -/
theorem Token.markup? {t : Token} (h : t.isValid = true) (hr : t.isRun = false) :
    ∃ u m, t.text = '<' :: u ∧ t.pieces = [m] ∧
      ∀ rest, Xml.markup? (u ++ rest) = some (m, rest) := by
  match t with
  | opening tag =>
    refine ⟨tag.text ++ ['>'], _, rfl, rfl, fun rest => ?_⟩
    rw [List.append_assoc]
    exact markup?_opening h rest
  | closing name after =>
    simp only [isValid, Bool.and_eq_true] at h
    refine ⟨'/' :: (name ++ (after ++ ['>'])), _, rfl, rfl, fun rest => ?_⟩
    rw [List.cons_append, List.append_assoc, List.append_assoc]
    exact markup?_closing (isWord_of_isLabel h.1) h.2 rest
  | leaf (.empty tag) =>
    refine ⟨tag.text ++ ['/', '>'], _, rfl, rfl, fun rest => ?_⟩
    rw [List.append_assoc]
    exact markup?_empty h rest
  | leaf (.run _) => cases hr
  | leaf (.unparsed t) =>
    refine ⟨'!' :: ("[CDATA[".toList ++ (t ++ "]]>".toList)), _, rfl, rfl, fun rest => ?_⟩
    rw [List.cons_append, List.append_assoc]
    exact declaration?_unparsed rest (by simpa [isValid, Leaf.isValid] using h)
  | leaf (.comment t) =>
    refine ⟨'!' :: ("--".toList ++ (t ++ "-->".toList)), _, rfl, rfl, fun rest => ?_⟩
    rw [List.cons_append, List.append_assoc]
    exact declaration?_comment rest (by simpa [isValid, Leaf.isValid] using h)
  | leaf (.instruction t) =>
    simp only [isValid, Leaf.isValid, Bool.and_eq_true, bne_iff_ne, Bool.not_eq_true'] at h
    refine ⟨'?' :: (t ++ "?>".toList), _, rfl, rfl, fun rest => ?_⟩
    rw [List.cons_append]
    exact instruction?_text rest h.1 h.2
  | leaf (.doctype t) =>
    simp only [isValid, Leaf.isValid, Bool.and_eq_true] at h
    refine ⟨'!' :: ("DOCTYPE".toList ++ (t ++ ['>'])), _, rfl, rfl, fun rest => ?_⟩
    rw [List.cons_append, List.append_assoc, List.append_assoc]
    exact declaration?_doctype h.1 h.2 rest

/-- A run of text is well spelled and has no angle bracket. -/
theorem Leaf.run?_text {gs : List Glyph} (h : (Leaf.run gs).isValid = true) :
    run? (spelled gs) = some (Leaf.run gs).pieces ∧ '<' ∉ spelled gs := by
  have hall : ∀ g ∈ gs, g.isValid ['<', '&'] = true := List.all_eq_true.1 h
  exact ⟨run?_spelled hall (by decide),
    notMem_spelled hall List.mem_cons_self (by decide) (by decide) (by decide)⟩

/-- **A token is read as its pieces**; a run of text has to stand in front of a tag. -/
theorem piecesOnto?_token {t : Token} (h : t.isValid = true) {rest : Text}
    (hr : t.isRun = true → AtTag rest) (done : List Markup) :
    piecesOnto? done (t.text ++ rest) = piecesOnto? (t.pieces.reverse ++ done) rest := by
  cases hrun : t.isRun with
  | false =>
    obtain ⟨u, m, ht, hp, hm⟩ := Token.markup? h hrun
    rw [ht, hp, List.cons_append, piecesOnto?_tag (hm rest)]
    rfl
  | true =>
    match t with
    | .leaf (.run gs) =>
      obtain ⟨hread, hlt⟩ := Leaf.run?_text h
      have hone : (Leaf.run gs).pieces.reverse = (Leaf.run gs).pieces := by
        simp only [Leaf.pieces]
        split <;> rfl
      have hall := piecesOnto?_run hlt hread (hr hrun) done
      rwa [← hone] at hall

/-! ## Reading a document -/

theorem Token.atTag {t : Token} (h : t.isValid = true) (hr : t.isRun = false) (rest : Text) :
    AtTag (t.text ++ rest) := by
  obtain ⟨u, _, ht, -⟩ := Token.markup? h hr
  rw [ht]
  rfl

/-- Behind a run of text there is a tag or nothing. -/
theorem WellFormed.atTag {t : Token} {ts : List Token} (h : WellFormed (t :: ts))
    (hr : t.isRun = true) : AtTag (written ts) := by
  cases ts with
  | nil => rfl
  | cons u us =>
    have hu : u.isRun = false := by
      have hapart : (t.isRun && u.isRun) = false := (List.isChain_cons_cons.1 h.apart).1
      rwa [hr, Bool.true_and] at hapart
    exact Token.atTag (h.valid u (by simp)) hu (written us)

theorem WellFormed.tail {t : Token} {ts : List Token} (h : WellFormed (t :: ts)) : WellFormed ts :=
  h.infix (List.suffix_cons t ts).isInfix

/-- **The pieces of a sequence** are those of its tokens. -/
theorem piecesOnto?_written {ts : List Token} (h : WellFormed ts) (done : List Markup) :
    piecesOnto? done (written ts) = some (done.reverse ++ ts.flatMap Token.pieces) := by
  induction ts generalizing done with
  | nil =>
    rw [written, List.flatMap_nil, piecesOnto?]
    simp
  | cons t ts ih =>
    rw [written, List.flatMap_cons, ← written,
      piecesOnto?_token (h.valid t List.mem_cons_self) h.atTag, ih h.tail]
    simp

/-! ## Byte order marks -/

/-- The text of a glyph begins with a byte order mark only if it is one that stands for itself. -/
theorem dropStart?_mark_glyph {barred : Text} {g : Glyph} (h : g.isValid barred = true)
    (hne : g ≠ .plain mark) (rest : Text) : dropStart? [mark] (g.text ++ rest) = none := by
  rcases Glyph.text_cases h with ⟨c, rfl, -⟩ | ⟨name, ht, -⟩
  · exact if_neg fun he => hne (congrArg Glyph.plain he.symm)
  · rw [ht]
    exact if_neg (by decide)

theorem Token.unmarked_of_isRun {t : Token} (h : t.isRun = false) : t.unmarked = t := by
  match t with
  | opening _ | closing _ _ | leaf (.empty _) | leaf (.unparsed _) | leaf (.comment _)
  | leaf (.instruction _) | leaf (.doctype _) => rfl
  | leaf (.run _) => cases h

theorem Leaf.unmarked_run {g : Glyph} (h : g ≠ .plain mark) (gs : List Glyph) :
    (Leaf.run (g :: gs)).unmarked = .run (g :: gs) := by
  cases g with
  | plain c => exact if_neg fun hc => h (congrArg Glyph.plain hc)
  | _ => rfl

/-- A document begins with a byte order mark, or has none. -/
theorem mark_cases {ts : List Token} (h : WellFormed ts) :
    (∃ gs us, ts = .leaf (.run (.plain mark :: gs)) :: us) ∨
      dropStart? [mark] (written ts) = none ∧ ts.modifyHead Token.unmarked = ts := by
  match ts with
  | [] => exact .inr ⟨rfl, rfl⟩
  | t :: us =>
    cases hr : t.isRun with
    | false =>
      have hat : AtTag (written (t :: us)) := Token.atTag (h.valid t List.mem_cons_self) hr _
      exact .inr ⟨dropStart?_mark hat, congrArg (· :: us) (Token.unmarked_of_isRun hr)⟩
    | true =>
      match t with
      | .leaf (.run []) => exact .inr ⟨dropStart?_mark (h.atTag hr), rfl⟩
      | .leaf (.run (g :: gs)) =>
        by_cases hg : g = .plain mark
        · exact .inl ⟨gs, us, by rw [hg]⟩
        · have hvalid : g.isValid ['<', '&'] = true :=
            List.all_eq_true.1 (h.valid _ List.mem_cons_self) g List.mem_cons_self
          have hnone := dropStart?_mark_glyph hvalid hg (spelled gs ++ written us)
          rw [← List.append_assoc] at hnone
          exact .inr ⟨hnone, congrArg (Token.leaf · :: us) (Leaf.unmarked_run hg gs)⟩

/-- **The pieces of a document** are those of its tokens without a byte order mark in front. -/
theorem ofText?_written {ts : List Token} (h : WellFormed ts) :
    Markup.ofText? (written ts) = some ((ts.modifyHead Token.unmarked).flatMap Token.pieces) := by
  rcases mark_cases h with ⟨gs, us, rfl⟩ | ⟨hnone, hsame⟩
  · have hrest : WellFormed (.leaf (.run gs) :: us) := by
      refine ⟨?_, ?_⟩
      · have hvalid := h.valid
        rw [List.forall_mem_cons] at hvalid ⊢
        refine ⟨?_, hvalid.2⟩
        have hall := hvalid.1
        simp only [Token.isValid, Leaf.isValid, List.all_cons, Bool.and_eq_true] at hall ⊢
        exact hall.2
      · have hchain := h.apart
        cases us with
        | nil => exact List.isChain_singleton _
        | cons u us =>
          rw [List.isChain_cons_cons] at hchain ⊢
          exact hchain
    have hdrop : dropStart? [mark] (written (.leaf (.run (.plain mark :: gs)) :: us)) =
        some (written (.leaf (.run gs) :: us)) := rfl
    rw [Markup.ofText?, hdrop, Option.getD_some, piecesOnto?_written hrest]
    rfl
  · rw [Markup.ofText?, hnone, Option.getD_none, hsame, piecesOnto?_written h]
    rfl

end SessionGateway.Xml
