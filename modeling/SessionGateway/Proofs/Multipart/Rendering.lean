/-
  Rendered forms — a form as the body that writes it, and the parts that are read from it.

  A part is written as its header lines, an empty line and its content, with a line end behind it;
  a delimiter stands before every part and behind the last one.  The content may be any octets but
  a line end with the delimiter behind it.

  * `FormPart.WellFormed.headers?_header`: the headers of a part are read from its header lines;
  * `FormPart.WellFormed.part?_render`: what is read behind a delimiter is the part that stands
    there, up to the next one;
  * `ofBody_render`: so the parts of the body are the parts of the form, in their order;
  * `boundary?_formType`: the boundary is read from the type of the form.
-/
import SessionGateway.Multipart.Boundary
import SessionGateway.Proofs.Multipart.Attributes
import SessionGateway.Proofs.Multipart.HeaderLines
import Mathlib.Data.List.Forall2
import Mathlib.Data.List.TakeDrop

namespace SessionGateway.Multipart

/-! ## Parts of a form -/

/-- A part of a form. -/
structure FormPart where
  name : Text
  fileName : Option Text
  contentType : Option Text
  body : Bytes

namespace FormPart

/-- What the parts of a form may be: plain names, a type that can be written into a header line, and
    no delimiter at the start of a line of the content. -/
structure WellFormed (boundary : Bytes) (p : FormPart) : Prop where
  name : ∀ c ∈ p.name, isPlain c = true
  fileName : ∀ f, p.fileName = some f → ∀ c ∈ f, isPlain c = true
  contentType : ∀ t, p.contentType = some t → IsValue t
  body : ¬ lineEnd ++ (hyphens ++ boundary) <:+: p.body

/-- The header lines of a part. -/
def header (p : FormPart) : List Bytes :=
  headerLine "Content-Disposition".toList (Utf8.encode (disposition p.name p.fileName)) ::
    (p.contentType.map fun t => headerLine "Content-Type".toList (Utf8.encode t)).toList

/-- A part, behind the line of its delimiter. -/
def render (p : FormPart) : Bytes := lines p.header ++ lineEnd ++ p.body ++ lineEnd

variable {boundary : Bytes} {p : FormPart}

theorem WellFormed.isValue_disposition (hp : p.WellFormed boundary) :
    IsValue (disposition p.name p.fileName) := by
  refine ⟨printable_disposition hp.name hp.fileName, ?_, ?_⟩
  · rw [head?_disposition]
    decide
  · rw [getLast?_disposition]
    decide

theorem name?_disposition : Header.name? "Content-Disposition".toList =
    some "content-disposition".toList := by
  decide

theorem name?_type : Header.name? "Content-Type".toList = some "content-type".toList := by
  decide

theorem WellFormed.isLine_header (hp : p.WellFormed boundary) : ∀ l ∈ p.header, IsLine l := by
  rw [header, List.forall_mem_cons]
  refine ⟨isLine_headerLine name?_disposition hp.isValue_disposition.all_inValue, ?_⟩
  cases ht : p.contentType with
  | none => exact nofun
  | some t =>
    rintro l hl
    rw [List.mem_singleton.1 hl]
    exact isLine_headerLine name?_type (hp.contentType t ht).all_inValue

/-- **The headers of a part are read from its header lines.** -/
theorem WellFormed.headers?_header (hp : p.WellFormed boundary) {block : Bytes}
    (hblock : block ++ lineEnd = lines p.header) :
    ∃ h : Headers, headers? block = some h ∧
      h.get? "content-disposition".toList = some (Utf8.encode (disposition p.name p.fileName)) ∧
      h.text? "content-type".toList = p.contentType := by
  have hread : headerLines block = p.header := headerLines_lines hp.isLine_header hblock
  have hdisposition := headerLine?_headerLine name?_disposition hp.isValue_disposition.all_inValue
    hp.isValue_disposition.isFlush_encode
  have hne : "content-disposition".toList ≠ "content-type".toList := by decide
  have hlength : p.header.length ≤ headerLimit := by
    rw [header]
    cases p.contentType with
    | none => exact (by decide : 1 ≤ headerLimit)
    | some t => exact (by decide : 2 ≤ headerLimit)
  rw [headers?, hread]
  dsimp only
  rw [if_pos hlength, header]
  cases ht : p.contentType with
  | none =>
    rw [Option.map_none, Option.toList_none, List.mapM_cons, hdisposition]
    refine ⟨Headers.empty.insert "content-disposition".toList _, rfl,
      Headers.get?_insert_self _ _ _, ?_⟩
    rw [Headers.text?, Headers.get?_insert_of_ne _ _ hne.symm]
    rfl
  | some t =>
    have htype := hp.contentType t ht
    have hline := headerLine?_headerLine name?_type htype.all_inValue htype.isFlush_encode
    rw [Option.map_some, Option.toList_some, List.mapM_cons, hdisposition, List.mapM_cons, hline]
    refine ⟨(Headers.empty.insert "content-disposition".toList _).insert "content-type".toList _,
      rfl, ?_, ?_⟩
    · rw [Headers.get?_insert_of_ne _ _ hne, Headers.get?_insert_self]
    · rw [Headers.text?, Headers.get?_insert_self, Option.bind_some]
      exact Header.text?_encode fun c hc => .inr (htype.printable c hc)

/-- What is read of a part: all of it, but for a file name that the name of the field hides. -/
structure ReadAs (p : FormPart) (part : Part) : Prop where
  name : part.name? = some p.name
  fileName : part.fileName? = if occursIn stumbling p.name then none else p.fileName
  contentType : part.contentType? = p.contentType
  body : part.body = p.body

/-- **What is read behind a delimiter is the part that stands there**, up to the next one. -/
theorem WellFormed.part?_render (hboundary : 13 ∉ boundary) (hp : p.WellFormed boundary)
    (rest : Bytes) :
    ∃ part, part? (hyphens ++ boundary)
      (lineEnd ++ (p.render ++ (hyphens ++ boundary ++ rest))) = some (part, rest) ∧
      p.ReadAs part := by
  obtain ⟨block, hblock, hcut⟩ := cutAt?_emptyLine (hp.isLine_header _ List.mem_cons_self)
    (fun l hl => hp.isLine_header l (List.mem_cons_of_mem _ hl))
    (p.body ++ (lineEnd ++ (hyphens ++ boundary)) ++ rest)
  obtain ⟨h, hheaders, hdisposition, htype⟩ := hp.headers?_header hblock
  have hbody : cutAt? (lineEnd ++ (hyphens ++ boundary))
      (p.body ++ (lineEnd ++ (hyphens ++ boundary)) ++ rest) = some (p.body, rest) := by
    refine cutAt?_append_mark ?_ hp.body rest
    simpa [hyphens] using hboundary
  have hsplit : p.render ++ (hyphens ++ boundary ++ rest) = lines p.header ++ lineEnd ++
      (p.body ++ (lineEnd ++ (hyphens ++ boundary)) ++ rest) := by
    simp only [render, List.append_assoc]
  refine ⟨⟨h, p.body⟩, ?_, ?_⟩
  · have hline : dropStart? lineEnd ((lineEnd ++ (lines p.header ++ lineEnd ++
        (p.body ++ (lineEnd ++ (hyphens ++ boundary)) ++ rest))).dropWhile isPadding) = some _ :=
      dropStart?_self_append lineEnd _
    rw [hsplit, part?, hline, Option.bind_some, header, hcut, Option.bind_some]
    dsimp only
    rw [hheaders, Option.bind_some, hbody]
    rfl
  · have hdisposition' : (Part.mk h p.body).disposition? =
        some (Utf8.encode (disposition p.name p.fileName)) := hdisposition
    refine ⟨?_, ?_, htype, rfl⟩
    · rw [Part.name?, hdisposition', Option.bind_some, attribute?_name hp.name]
    · rw [Part.fileName?, hdisposition', Option.bind_some, attribute?_fileName hp.name hp.fileName]

end FormPart

/-! ## Forms -/

/-- A form as a body: a delimiter before every part and behind the last one, the last one with two
    more hyphens. -/
def render (boundary : Bytes) (parts : List FormPart) : Bytes :=
  parts.flatMap (fun p => hyphens ++ boundary ++ lineEnd ++ p.render) ++
    (hyphens ++ boundary ++ hyphens ++ lineEnd)

section
variable {boundary : Bytes} (hboundary : 13 ∉ boundary) {parts : List FormPart}
  (hparts : ∀ p ∈ parts, p.WellFormed boundary)
include hboundary hparts

/-- What stands behind a delimiter is read as the parts that follow. -/
theorem after_render :
    ∃ rest, render boundary parts = hyphens ++ boundary ++ rest ∧
      List.Forall₂ FormPart.ReadAs parts (Parts.after (hyphens ++ boundary) rest).parts ∧
      (Parts.after (hyphens ++ boundary) rest).closed = true := by
  induction parts with
  | nil =>
    refine ⟨hyphens ++ lineEnd, List.append_assoc _ _ _, ?_⟩
    have hend : (dropStart? hyphens (hyphens ++ lineEnd)).isSome = true := by decide
    rw [Parts.after, if_pos hend]
    exact ⟨.nil, rfl⟩
  | cons p parts ih =>
    rw [List.forall_mem_cons] at hparts
    obtain ⟨rest, hrest, hothers, hclosed⟩ := ih hparts.2
    obtain ⟨part, hpart, hread⟩ := hparts.1.part?_render hboundary rest
    refine ⟨lineEnd ++ (p.render ++ render boundary parts), ?_, ?_⟩
    · simp only [render, List.flatMap_cons, List.append_assoc]
    · have hgoes : ∀ ys : Bytes, ¬ (dropStart? hyphens (lineEnd ++ ys)).isSome = true :=
        fun _ => Bool.false_ne_true
      rw [hrest, Parts.after, if_neg (hgoes _)]
      split
      · next hnone => cases hnone.symm.trans hpart
      · next hsome =>
        cases hsome.symm.trans hpart
        exact ⟨.cons hread hothers, hclosed⟩

/-- **The parts of the body are the parts of the form, in their order.** -/
theorem ofBody_render :
    List.Forall₂ FormPart.ReadAs parts (Parts.ofBody boundary (render boundary parts)).parts ∧
      (Parts.ofBody boundary (render boundary parts)).closed = true := by
  obtain ⟨rest, hrest, hread⟩ := after_render hboundary hparts
  rw [hrest, Parts.ofBody, cutAt?_self_append]
  exact hread

end

/-! ## The type of a form -/

/-- What stands before the boundary in the type of a form. -/
def typeMark : Text := "multipart/form-data; boundary=".toList

theorem typeMark_eq : typeMark = "multipart".toList ++ '/' ::
    ("form-data".toList ++ ';' :: ' ' :: ("boundary".toList ++ ['='])) := by
  decide

/-- The type of a form with the given boundary. -/
def formType (boundary : Text) : Text := typeMark ++ boundary

/-- A token: it is not empty. -/
structure IsToken (t : Text) : Prop where
  nonempty : t ≠ []
  token : ∀ c ∈ t, Header.isToken c = true

section
variable {type sub key value : Text}

theorem IsToken.takeWhile (ht : IsToken key) (rest : Text) (hr : rest.takeWhile Header.isToken = []) :
    (key ++ rest).takeWhile Header.isToken = key := by
  rw [List.takeWhile_append_of_pos ht.token, hr, List.append_nil]

theorem IsToken.span (ht : IsToken key) (rest : Text) (hr : rest.takeWhile Header.isToken = []) :
    (key ++ rest).span Header.isToken = (key, rest) := by
  have hdrop : rest.dropWhile Header.isToken = rest := by
    have hall := List.takeWhile_append_dropWhile (p := Header.isToken) (l := rest)
    rwa [hr, List.nil_append] at hall
  rw [List.span_eq_takeWhile_dropWhile, ht.takeWhile rest hr,
    List.dropWhile_append_of_pos ht.token, hdrop]

/-- A token without quotation marks is a value. -/
theorem IsToken.value? (ht : IsToken value) : value? value = some (value, []) := by
  have hspan : value.span Header.isToken = (value, []) := by
    have := ht.span [] rfl
    rwa [List.append_nil] at this
  unfold Multipart.value?
  split
  · exact absurd (ht.token _ List.mem_cons_self) (by decide)
  · rw [hspan]

theorem IsToken.dropWhile (ht : IsToken key) (rest : Text) :
    (key ++ rest).dropWhile (· == ' ') = key ++ rest := by
  obtain ⟨c, t, rfl⟩ := List.exists_cons_of_ne_nil ht.nonempty
  have hc : (c == ' ') = false := by
    refine beq_eq_false_iff_ne.2 fun he => ?_
    exact absurd (ht.token c List.mem_cons_self) (by rw [he]; decide)
  rw [List.cons_append, List.dropWhile_cons, hc]
  rfl

/-- A single parameter is read. -/
theorem parameters?_one (hkey : IsToken key) (hvalue : IsToken value) (fuel : Nat) :
    parameters? (fuel + 1) (' ' :: (key ++ '=' :: value)) = some [(Text.lower key, value)] := by
  have hdrop : (' ' :: (key ++ '=' :: value)).dropWhile (· == ' ') = key ++ '=' :: value :=
    hkey.dropWhile _
  have hspan := hkey.span ('=' :: value) rfl
  have htake := hkey.takeWhile ('=' :: value) rfl
  have hend : parameters? fuel [] = some [] := by cases fuel <;> rfl
  rw [parameters?, hdrop]
  split
  · next h => exact absurd h (List.append_ne_nil_of_left_ne_nil hkey.nonempty _)
  · rw [hspan, htake]
    split
    · next h =>
      cases h
      rw [hvalue.value?, Option.bind_some]
      dsimp only
      rw [hend]
      rfl
    · next h =>
      obtain ⟨c, k, rfl⟩ := List.exists_cons_of_ne_nil hkey.nonempty
      exact absurd rfl (h c k value)

theorem mediaType?_one (htype : IsToken type) (hsub : IsToken sub) (hkey : IsToken key)
    (hvalue : IsToken value) :
    mediaType? (type ++ '/' :: (sub ++ ';' :: ' ' :: (key ++ '=' :: value))) =
      some (Text.lower type, withoutSuffix (Text.lower sub), [(Text.lower key, value)]) := by
  obtain ⟨c, type, rfl⟩ := List.exists_cons_of_ne_nil htype.nonempty
  obtain ⟨d, sub, rfl⟩ := List.exists_cons_of_ne_nil hsub.nonempty
  have hspan := htype.span ('/' :: (d :: sub ++ ';' :: ' ' :: (key ++ '=' :: value))) rfl
  have hspan' := hsub.span (';' :: ' ' :: (key ++ '=' :: value)) rfl
  rw [mediaType?, hspan, htype.takeWhile _ rfl]
  simp only [hspan', List.length_cons, parameters?_one hkey hvalue, Option.map_some]
end

/-- **The boundary of a form is read from its type.** -/
theorem boundary?_formType {boundary : Text} (hne : boundary ≠ [])
    (h : ∀ c ∈ boundary, c.isAlphanum = true) : boundary? (formType boundary) = some boundary := by
  have hboundary : IsToken boundary := ⟨hne, fun c hc => by rw [Header.isToken, h c hc]; rfl⟩
  have hmedia := @mediaType?_one "multipart".toList "form-data".toList "boundary".toList boundary
    ⟨by decide, by decide⟩ ⟨by decide, by decide⟩ ⟨by decide, by decide⟩ hboundary
  have hform : formType boundary = "multipart".toList ++ '/' :: ("form-data".toList ++ ';' :: ' ' ::
      ("boundary".toList ++ '=' :: boundary)) := by
    rw [formType, typeMark_eq]
    simp only [List.append_assoc, List.cons_append, List.nil_append]
  have htype : Text.lower "multipart".toList = "multipart".toList := by decide
  have hsub : withoutSuffix (Text.lower "form-data".toList) = "form-data".toList := by decide
  have hkey : Text.lower "boundary".toList = "boundary".toList := by decide
  rw [boundary?, hform, hmedia, Option.bind_some, hkey]
  exact (if_pos ⟨htype, hsub⟩).trans List.lookup_cons_self

end SessionGateway.Multipart
