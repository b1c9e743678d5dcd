/-
  Forms — a rendered form is decoded field by field.

  A body of parts is decoded part by part, and a part by the rules for a body of its own
  (`ofPart`): its kind is what its type says, its charset the one that its type declares, and a
  part without content is null.

  * `ofParts_eq`: the first part that cannot be decoded fails the whole body;
  * `decode_render`: what is decoded from the rendering of a form are its fields, unless the value
    of one of them cannot be decoded;
  * `decode_render_hidden`: a name that holds `filenamefilename` hides the name of the file.
-/
import SessionGateway.Payload.Decoding
import SessionGateway.Proofs.Multipart.Rendering

namespace SessionGateway

/-! ## One by one -/

section
variable {α β ε : Type} {f : α → Except ε β}

theorem exists_map_eq_error_iff {g : α → β} {x : Except ε α} :
    (∃ e, x.map g = .error e) ↔ ∃ e, x = .error e := by
  cases x with
  | error e => exact ⟨fun _ => ⟨e, rfl⟩, fun _ => ⟨e, rfl⟩⟩
  | ok a => exact ⟨nofun, nofun⟩

theorem map_eq_ok_iff {g : α → β} {x : Except ε α} {b : β} :
    x.map g = .ok b ↔ ∃ a, x = .ok a ∧ g a = b := by
  cases x with
  | error e => exact ⟨nofun, nofun⟩
  | ok a => simp [Except.map]

/-- What is decoded one by one fails exactly if one of it does. -/
theorem exists_mapM_eq_error_iff {xs : List α} :
    (∃ e, xs.mapM f = .error e) ↔ ∃ x ∈ xs, ∃ e, f x = .error e := by
  induction xs with
  | nil => exact ⟨nofun, nofun⟩
  | cons x xs ih =>
    simp only [List.mapM_cons, List.exists_mem_cons_iff, ← ih]
    cases f x with
    | error e => exact ⟨fun _ => .inl ⟨e, rfl⟩, fun _ => ⟨e, rfl⟩⟩
    | ok y =>
      cases xs.mapM f with
      | error e => exact ⟨fun _ => .inr ⟨e, rfl⟩, fun _ => ⟨e, rfl⟩⟩
      | ok ys => exact ⟨nofun, by rintro (⟨_, h⟩ | ⟨_, h⟩) <;> cases h⟩

/-- What is decoded one by one is what each of it is decoded as. -/
theorem forall₂_of_mapM_eq_ok {xs : List α} {ys : List β} (h : xs.mapM f = .ok ys) :
    List.Forall₂ (fun x y => f x = .ok y) xs ys := by
  induction xs generalizing ys with
  | nil =>
    cases h
    exact .nil
  | cons x xs ih =>
    rw [List.mapM_cons] at h
    cases hx : f x with
    | error e =>
      rw [hx] at h
      cases h
    | ok y =>
      cases hxs : xs.mapM f with
      | error e =>
        rw [hx, hxs] at h
        cases h
      | ok ys =>
        rw [hx, hxs] at h
        cases h
        exact .cons hx (ih hxs)

end

namespace Payload

open Multipart

/-! ## Parts -/

/-- The value of a part with the given type and content. -/
def ofPart (type : Option Text) (body : Bytes) : Except DecodingFault Payload :=
  if body.isEmpty then .ok null
  else
    decode (partKind type) type body
      (((type.bind Media.charset?).map Charset.ofName).getD .utf8)

/-- The field that a part is decoded as. -/
def fieldOf (part : Part) : Except DecodingFault (Field Payload) :=
  (ofPart part.contentType? part.body).map fun v =>
    ⟨part.name?, part.fileName?, part.contentType?.map Media.essence,
      part.contentType?.bind Media.charset?, v⟩

/-- **A body of parts is decoded part by part.** -/
theorem ofParts_eq (boundary : Text) (body : Bytes) :
    ofParts boundary body =
      ((Parts.ofBody (Utf8.encode boundary) body).parts.mapM fieldOf).bind fun fields =>
        if (Parts.ofBody (Utf8.encode boundary) body).closed then .ok (.fields fields)
        else .error .multipart := by
  rw [ofParts]
  dsimp only
  rw [List.mapM_subtype (g := fieldOf), List.unattach_attach]
  · rfl
  · intro part hpart
    rw [fieldOf, ofPart]
    cases hempty : part.body.isEmpty with
    | true => rfl
    | false =>
      -- a form within the form has its own boundary; any other part is a body of one piece
      by_cases hkind : partKind part.contentType? = .multipart
      · rw [hkind, decode]
        dsimp only
        rw [if_neg Bool.false_ne_true, if_neg Bool.false_ne_true, if_pos rfl]
        cases boundary? (part.contentType?.getD []) <;> rfl
      · rw [decode.eq_2 _ _ _ _ hkind]
        dsimp only
        rw [if_neg Bool.false_ne_true, if_neg hkind]
        rfl

/-! ## Fields -/

/-- The field that a part of a form is decoded as. -/
def ofFormPart (p : FormPart) : Except DecodingFault (Field Payload) :=
  (ofPart p.contentType p.body).map fun v =>
    ⟨some p.name, if occursIn stumbling p.name then none else p.fileName,
      p.contentType.map Media.essence, p.contentType.bind Media.charset?, v⟩

/-- A field with all that its part has, but for a file name that the name of the field hides. -/
structure DecodedAs (p : FormPart) (field : Field Payload) : Prop where
  name : field.name = some p.name
  fileName : field.fileName = if occursIn stumbling p.name then none else p.fileName
  contentType : field.contentType = p.contentType.map Media.essence
  charset : field.charset = p.contentType.bind Media.charset?
  value : ofPart p.contentType p.body = .ok field.value

theorem decodedAs_of_eq_ok {p : FormPart} {field : Field Payload}
    (h : ofFormPart p = .ok field) : DecodedAs p field := by
  obtain ⟨v, hv, rfl⟩ := map_eq_ok_iff.1 h
  exact ⟨rfl, rfl, rfl, rfl, hv⟩

theorem fieldOf_eq {p : FormPart} {part : Part} (h : p.ReadAs part) :
    fieldOf part = ofFormPart p := by
  rw [fieldOf, ofFormPart, h.name, h.fileName, h.contentType, h.body]

theorem mapM_fieldOf {parts : List FormPart} {read : List Part}
    (h : List.Forall₂ FormPart.ReadAs parts read) : read.mapM fieldOf = parts.mapM ofFormPart := by
  induction h with
  | nil => rfl
  | cons hp _ ih => rw [List.mapM_cons, List.mapM_cons, fieldOf_eq hp, ih]

section
variable {boundary : Text} (hne : boundary ≠ [])
  (hboundary : ∀ c ∈ boundary, c.isAlphanum = true) {parts : List FormPart}
  (hparts : ∀ p ∈ parts, p.WellFormed (Utf8.encode boundary)) (charset : Charset)
include hne hboundary hparts

theorem decode_render_eq :
    decode .multipart (some (formType boundary)) (render (Utf8.encode boundary) parts) charset =
      (parts.mapM ofFormPart).map .fields := by
  have hreturn : 13 ∉ Utf8.encode boundary := by
    intro hm
    obtain ⟨c, hc, he⟩ := Utf8.mem_encode_of_lt hm (by decide)
    have hc' := hboundary c hc
    rw [← Char.ofNat_toNat c, he] at hc'
    exact absurd hc' (by decide)
  obtain ⟨hread, hclosed⟩ := ofBody_render hreturn hparts
  rw [decode, Option.getD_some, boundary?_formType hne hboundary]
  dsimp only
  rw [ofParts_eq, hclosed, mapM_fieldOf hread]
  cases parts.mapM ofFormPart <;> rfl

/-- **A rendered form is decoded as its fields**, one for each part and in their order; the body
    fails exactly if the value of some part does. -/
theorem decode_render :
    ((∃ fault, decode .multipart (some (formType boundary))
        (render (Utf8.encode boundary) parts) charset = .error fault) ↔
      ∃ p ∈ parts, ∃ fault, ofPart p.contentType p.body = .error fault) ∧
    ∀ payload, decode .multipart (some (formType boundary))
        (render (Utf8.encode boundary) parts) charset = .ok payload →
      ∃ fields, payload = .fields fields ∧ List.Forall₂ DecodedAs parts fields := by
  rw [decode_render_eq hne hboundary hparts charset, exists_map_eq_error_iff,
    exists_mapM_eq_error_iff]
  refine ⟨exists_congr fun p => and_congr_right fun _ => exists_map_eq_error_iff, ?_⟩
  intro payload h
  obtain ⟨fields, hfields, rfl⟩ := map_eq_ok_iff.1 h
  exact ⟨fields, rfl, (forall₂_of_mapM_eq_ok hfields).imp fun _ _ => decodedAs_of_eq_ok⟩

end

/-- A field without content, and a file in another charset whose content begins with a line end and
    two hyphens. -/
def noteAndFile : List FormPart :=
  [⟨"note".toList, none, none, []⟩,
    ⟨"file".toList, some "a.txt".toList, some "text/plain; charset=iso-8859-1".toList,
      [13, 10, 45, 45, 0xE9]⟩]

theorem decode_render_noteAndFile :
    (∀ p ∈ noteAndFile, p.WellFormed (Utf8.encode "XyZ".toList)) ∧
      ∃ fields, decode .multipart (some (formType "XyZ".toList))
          (render (Utf8.encode "XyZ".toList) noteAndFile) .utf8 = .ok (.fields fields) ∧
        List.Forall₂ DecodedAs noteAndFile fields := by
  have hparts : ∀ p ∈ noteAndFile, p.WellFormed (Utf8.encode "XyZ".toList) := by
    rw [noteAndFile, List.forall_mem_cons, List.forall_mem_singleton]
    refine ⟨⟨by decide, nofun, nofun, ?_⟩, ⟨by decide, ?_, ?_, ?_⟩⟩
    · exact (occursIn_eq_false_iff (by decide)).1 (by decide)
    · rintro f ⟨⟩
      decide
    · rintro t ⟨⟩
      exact ⟨by decide, by decide, by decide⟩
    · exact (occursIn_eq_false_iff (by decide)).1 (by decide)
  have hvalues : ∀ p ∈ noteAndFile, ∃ v, ofPart p.contentType p.body = .ok v := by
    rw [noteAndFile, List.forall_mem_cons, List.forall_mem_singleton]
    have hkind : partKind (some "text/plain; charset=iso-8859-1".toList) = .text := by decide
    refine ⟨⟨null, rfl⟩, ?_⟩
    rw [ofPart, hkind]
    exact ⟨_, rfl⟩
  obtain ⟨hfails, hfields⟩ := decode_render (by decide) (by decide) hparts .utf8
  refine ⟨hparts, ?_⟩
  cases h : decode .multipart (some (formType "XyZ".toList))
    (render (Utf8.encode "XyZ".toList) noteAndFile) .utf8 with
  | error fault =>
    obtain ⟨p, hp, fault', hfault⟩ := hfails.1 ⟨fault, h⟩
    obtain ⟨v, hv⟩ := hvalues p hp
    cases hfault.symm.trans hv
  | ok payload =>
    obtain ⟨fields, rfl, hall⟩ := hfields payload h
    exact ⟨fields, rfl, hall⟩

/-- A file in a field whose name has the word for the name of a file twice. -/
def hidden : FormPart := ⟨stumbling, some "x.txt".toList, none, [118]⟩

/-- The name of its file is lost. -/
theorem decode_render_hidden :
    hidden.WellFormed (Utf8.encode "XyZ".toList) ∧ hidden.fileName = some "x.txt".toList ∧
      ∃ field, decode .multipart (some (formType "XyZ".toList))
          (render (Utf8.encode "XyZ".toList) [hidden]) .utf8 = .ok (.fields [field]) ∧
        field.fileName = none := by
  have hpart : hidden.WellFormed (Utf8.encode "XyZ".toList) := by
    refine ⟨by decide, ?_, nofun, (occursIn_eq_false_iff (by decide)).1 (by decide)⟩
    rintro f ⟨⟩
    decide
  obtain ⟨v, hv⟩ : ∃ v, ofPart hidden.contentType hidden.body = .ok v := ⟨_, rfl⟩
  have hfield : ofFormPart hidden = .ok ⟨some stumbling, none, none, none, v⟩ := by
    rw [ofFormPart, hv, if_pos (by decide)]
    rfl
  refine ⟨hpart, rfl, ⟨some stumbling, none, none, none, v⟩, ?_, rfl⟩
  rw [decode_render_eq (by decide) (by decide) (List.forall_mem_singleton.2 hpart), List.mapM_cons,
    hfield]
  rfl

end Payload

end SessionGateway
