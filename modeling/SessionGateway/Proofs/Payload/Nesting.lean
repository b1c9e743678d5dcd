/-
  Nested bodies — forms within forms, however they are nested, are decoded to the end.

  A part of a form may be a form itself, with a boundary of its own.  Whatever its boundary, a part
  leaves the delimiters before and behind it, its line ends and its header lines to the body that
  it is cut out of, so the body of a form shrinks with every level.

  * `Parts.sum_length_after_le`: the parts lie behind each other in the body, each with eight
    octets and a delimiter besides its content;
  * `Divided.Within`: one form as a part of another, which is what the decoder recurses on;
  * `decodeWithin`: the decoder with a bound on the levels that it may go down, which has no answer
    for forms that lie deeper;
  * `nesting_bounded`: forms lie in each other at most as deep as the outermost body is long, and
    the decoder that may go down as deep answers as the one without a bound.
-/
import SessionGateway.Proofs.Payload.Forms
import Mathlib.Algebra.GroupWithZero.Nat
import Mathlib.Algebra.Order.BigOperators.Group.List
import Mathlib.Algebra.Order.Group.Nat

namespace SessionGateway

/-! ## What a part leaves to the body -/

namespace Multipart

/-- What a part is read from: its line end, its header lines and an empty line, its content, and
    the delimiter at the start of the next line. -/
theorem exists_eq_of_part? {delimiter t rest : Bytes} {p : Part}
    (h : part? delimiter t = some (p, rest)) :
    ∃ padding block, t = padding ++ (lineEnd ++ (block ++ (lineEnd ++ lineEnd) ++
        (p.body ++ (lineEnd ++ delimiter) ++ rest))) ∧
      padding.all isPadding ∧ headers? block = some p.headers := by
  simp only [part?, Option.bind_eq_some_iff, Option.map_eq_some_iff, Prod.mk.injEq] at h
  obtain ⟨lines, hlines, ⟨block, content⟩, hblock, headers, hheaders, ⟨body, rest'⟩, hbody,
    rfl, rfl⟩ := h
  refine ⟨t.takeWhile isPadding, block, ?_, List.all_takeWhile, hheaders⟩
  rw [← cutAt?_eq_some hbody, ← cutAt?_eq_some hblock, ← dropStart?_eq_some_iff.1 hlines,
    List.takeWhile_append_dropWhile]

namespace Parts

/-- **The parts lie behind each other in the body**, each with its line ends and a delimiter. -/
theorem sum_length_after_le (delimiter t : Bytes) :
    ((after delimiter t).parts.map fun p => p.body.length + delimiter.length + 8).sum ≤
      t.length := by
  induction t using after.induct delimiter with
  | case1 t h =>
    rw [after, if_pos h]
    exact Nat.zero_le _
  | case2 t h hnone =>
    rw [after, if_neg h]
    split
    · exact Nat.zero_le _
    · next hsome => cases hnone.symm.trans hsome
  | case3 t h p rest hpart _ ih =>
    obtain ⟨padding, block, ht, -, -⟩ := exists_eq_of_part? hpart
    have hlength := congrArg List.length ht
    simp only [List.length_append, lineEnd, List.length_cons, List.length_nil] at hlength
    rw [after, if_neg h]
    split
    · next hnone => cases hnone.symm.trans hpart
    · next hsome =>
      cases hsome.symm.trans hpart
      rw [List.map_cons, List.sum_cons]
      omega

/-- A part is shorter than the body by the two delimiters around it and four line ends. -/
theorem length_body_add_le {boundary body : Bytes} {p : Part}
    (hp : p ∈ (ofBody boundary body).parts) :
    p.body.length + 2 * boundary.length + 12 ≤ body.length := by
  rw [ofBody] at hp
  split at hp
  · next before rest hcut =>
    have hmem := List.mem_map_of_mem
      (f := fun p : Part => p.body.length + (hyphens ++ boundary).length + 8) hp
    have hpart := (List.le_sum_of_mem hmem).trans (sum_length_after_le _ rest)
    have hlength := congrArg List.length (cutAt?_eq_some hcut)
    simp only [List.length_append, hyphens, List.length_cons, List.length_nil] at hpart hlength
    omega
  · cases hp

end Parts

end Multipart

namespace Payload

open Multipart

/-! ## Forms within forms -/

/-- A body, and the boundary that divides it into parts. -/
structure Divided where
  boundary : Text
  body : Bytes

namespace Divided

/-- The parts of a body. -/
def parts (d : Divided) : List Part := (Parts.ofBody (Utf8.encode d.boundary) d.body).parts

/-- The content of a part, where it is divided into parts in its turn. -/
structure ContentOf (inner : Divided) (p : Part) : Prop where
  nonempty : p.body ≠ []
  kind : partKind p.contentType? = .multipart
  boundary : boundary? (p.contentType?.getD []) = some inner.boundary
  body : inner.body = p.body

/-- Whether a form is a part of another one. -/
def Within (inner outer : Divided) : Prop := ∃ p ∈ outer.parts, inner.ContentOf p

variable {inner outer : Divided}

/-- A form within a form is shorter, whatever the boundaries. -/
theorem Within.length_add_le (h : inner.Within outer) :
    inner.body.length + 12 ≤ outer.body.length := by
  obtain ⟨p, hp, hcontent⟩ := h
  have hpart := Parts.length_body_add_le hp
  rw [hcontent.body]
  omega

/-- There is no infinite descent into forms within forms. -/
theorem wellFounded_within : WellFounded Within := by
  refine Subrelation.wf (fun {inner outer} hwithin => ?_) (measure fun d => d.body.length).wf
  have hstep := hwithin.length_add_le
  show inner.body.length < outer.body.length
  omega

/-- **How deep forms lie in each other**: every level takes two delimiters and four line ends. -/
theorem length_chain_le {inners : List Divided}
    (h : (outer :: inners).IsChain fun outer inner => inner.Within outer) :
    12 * inners.length ≤ outer.body.length := by
  induction inners generalizing outer with
  | nil => exact Nat.zero_le _
  | cons inner inners ih =>
    obtain ⟨hwithin, hrest⟩ := List.isChain_cons_cons.1 h
    have hstep := hwithin.length_add_le
    have hinners := ih hrest
    rw [List.length_cons]
    omega

end Divided

/-! ## Decoding to a bounded depth -/

section
variable (nested : Text → Bytes → ExceptT DecodingFault Option Payload)

/-- Decodes a body of the given kind, with `nested` for a body of parts. -/
def decodeBy (kind : Kind) (header : Option Text) (body : Bytes) (charset : Charset) :
    ExceptT DecodingFault Option Payload :=
  match kind with
  | .multipart =>
    match boundary? (header.getD []) with
    | some boundary => nested boundary body
    | none => throw .multipart
  | _ => ExceptT.mk (some (ofBody kind body charset))

/-- The value of a part with the given type and content, with `nested` for a body of parts. -/
def partBy (type : Option Text) (body : Bytes) : ExceptT DecodingFault Option Payload :=
  if body.isEmpty then pure null
  else
    decodeBy nested (partKind type) type body
      (((type.bind Media.charset?).map Charset.ofName).getD .utf8)

/-- The field that a part is decoded as, with `nested` for a body of parts. -/
def fieldBy (part : Part) : ExceptT DecodingFault Option (Field Payload) := do
  let v ← partBy nested part.contentType? part.body
  pure ⟨part.name?, part.fileName?, part.contentType?.map Media.essence,
    part.contentType?.bind Media.charset?, v⟩

/-- Decodes a body of parts, with `nested` for the bodies of parts within it. -/
def partsBy (boundary : Text) (body : Bytes) : ExceptT DecodingFault Option Payload := do
  let split := Parts.ofBody (Utf8.encode boundary) body
  let fields ← split.parts.mapM (fieldBy nested)
  if split.closed then pure (.fields fields) else throw .multipart

end

/-- Decodes a body of parts, going down so many levels into the forms within it; there is no answer
    if a form that it comes to lies deeper. -/
def ofPartsWithin : Nat → Text → Bytes → ExceptT DecodingFault Option Payload
  | 0 => partsBy fun _ _ => ExceptT.mk none
  | n + 1 => partsBy (ofPartsWithin n)

/-- Decodes a body of the given kind, going down so many levels into the forms within it. -/
def decodeWithin (n : Nat) : Kind → Option Text → Bytes → Charset →
    ExceptT DecodingFault Option Payload :=
  decodeBy (ofPartsWithin n)

/-! ## Enough levels -/

section
variable {α β ε : Type}

theorem run_bind_eq_some {x : ExceptT ε Option α} {y : Except ε α} {f : α → ExceptT ε Option β}
    {g : α → Except ε β} (hx : x.run = some y) (hf : ∀ a, (f a).run = some (g a)) :
    (x >>= f).run = some (y >>= g) := by
  rw [ExceptT.run_bind, hx]
  cases y with
  | error e => rfl
  | ok a => exact hf a

/-- Where each answers, all that are decoded one by one answer. -/
theorem run_mapM_eq_some {f : α → ExceptT ε Option β} {g : α → Except ε β} {xs : List α}
    (h : ∀ x ∈ xs, (f x).run = some (g x)) : (xs.mapM f).run = some (xs.mapM g) := by
  induction xs with
  | nil => rfl
  | cons x xs ih =>
    rw [List.forall_mem_cons] at h
    rw [List.mapM_cons, List.mapM_cons]
    refine run_bind_eq_some h.1 fun y => ?_
    exact run_bind_eq_some (ih h.2) fun _ => rfl

end

section
variable {nested : Text → Bytes → ExceptT DecodingFault Option Payload}

theorem run_decodeBy {kind : Kind} {header : Option Text} {body : Bytes}
    (h : kind = .multipart → ∀ boundary, boundary? (header.getD []) = some boundary →
      (nested boundary body).run = some (ofParts boundary body)) (charset : Charset) :
    (decodeBy nested kind header body charset).run = some (decode kind header body charset) := by
  by_cases hkind : kind = .multipart
  · subst hkind
    rw [decodeBy, decode]
    cases hboundary : boundary? (header.getD []) with
    | none => rfl
    | some boundary => exact h rfl boundary hboundary
  · rw [decodeBy.eq_2 _ _ _ _ _ hkind, decode.eq_2 _ _ _ _ hkind]
    rfl

theorem run_fieldBy {part : Part} (h : ∀ inner : Divided, inner.ContentOf part →
    (nested inner.boundary inner.body).run = some (ofParts inner.boundary inner.body)) :
    (fieldBy nested part).run = some (fieldOf part) := by
  have hvalue : (partBy nested part.contentType? part.body).run =
      some (ofPart part.contentType? part.body) := by
    rw [partBy, ofPart]
    split
    · rfl
    · next hempty =>
      have hne : part.body ≠ [] := fun hbody => hempty (List.isEmpty_iff.2 hbody)
      exact run_decodeBy (fun hkind boundary hboundary =>
        h ⟨boundary, part.body⟩ ⟨hne, hkind, hboundary, rfl⟩) _
  rw [fieldBy, ExceptT.run_bind, hvalue, fieldOf]
  cases ofPart part.contentType? part.body <;> rfl

/-- **One level is decoded as without a bound**, if the forms within it are. -/
theorem run_partsBy {boundary : Text} {body : Bytes}
    (h : ∀ inner : Divided, inner.Within ⟨boundary, body⟩ →
      (nested inner.boundary inner.body).run = some (ofParts inner.boundary inner.body)) :
    (partsBy nested boundary body).run = some (ofParts boundary body) := by
  rw [ofParts_eq, partsBy]
  refine run_bind_eq_some (run_mapM_eq_some fun part hpart => ?_) fun fields => ?_
  · exact run_fieldBy fun inner hinner => h inner ⟨part, hpart, hinner⟩
  · split <;> rfl

end

/-- **Enough levels give the answer without a bound.** -/
theorem run_ofPartsWithin {n : Nat} {boundary : Text} {body : Bytes}
    (h : body.length < 12 * (n + 1)) :
    (ofPartsWithin n boundary body).run = some (ofParts boundary body) := by
  induction n generalizing boundary body with
  | zero =>
    -- a body of fewer than twelve octets has no parts
    refine run_partsBy fun inner hinner => ?_
    have hstep : inner.body.length + 12 ≤ body.length := hinner.length_add_le
    omega
  | succ n ih =>
    refine run_partsBy fun inner hinner => ih ?_
    have hstep : inner.body.length + 12 ≤ body.length := hinner.length_add_le
    omega

/-- **Forms within forms are decoded to the end.**  A part is shorter than the body it is cut out of,
    so that forms within forms have no infinite descent and lie in each other at most as deep as
    the outermost body is long; the decoder that may go down as deep has an answer for every body,
    and it is the one without a bound. -/
theorem nesting_bounded (boundary : Text) (body : Bytes) :
    (∀ p ∈ (Parts.ofBody (Utf8.encode boundary) body).parts, p.body.length < body.length) ∧
    (∀ inner : Divided, inner.Within ⟨boundary, body⟩ → inner.body.length < body.length) ∧
    WellFounded Divided.Within ∧
    (∀ inners : List Divided,
      (⟨boundary, body⟩ :: inners).IsChain (fun outer inner => inner.Within outer) →
        inners.length ≤ body.length) ∧
    ∀ n, body.length ≤ n →
      (ofPartsWithin n boundary body).run = some (ofParts boundary body) ∧
      ∀ kind header charset,
        (decodeWithin n kind header body charset).run = some (decode kind header body charset) := by
  refine ⟨fun p hp => ?_, fun inner hinner => ?_, Divided.wellFounded_within,
    fun inners hchain => ?_, fun n hn => ?_⟩
  · have hpart := Parts.length_body_add_le hp
    omega
  · have hstep : inner.body.length + 12 ≤ body.length := hinner.length_add_le
    omega
  · have hlength : 12 * inners.length ≤ body.length := Divided.length_chain_le hchain
    omega
  · have hlevels : body.length < 12 * (n + 1) := by omega
    exact ⟨run_ofPartsWithin hlevels, fun kind header charset =>
      run_decodeBy (fun _ _ _ => run_ofPartsWithin hlevels) charset⟩

/-- A form with one field. -/
def letter : Divided :=
  ⟨"in".toList, render (Utf8.encode "in".toList) [⟨"note".toList, none, none, [118]⟩]⟩

/-- A form as a part of another one. -/
def enclosed : FormPart :=
  ⟨"letter".toList, none, some (formType letter.boundary), letter.body⟩

/-- A form with a form in it. -/
def envelope : Divided := ⟨"out".toList, render (Utf8.encode "out".toList) [enclosed]⟩

theorem enclosed_wellFormed : enclosed.WellFormed (Utf8.encode "out".toList) := by
  refine ⟨by decide, nofun, ?_, (occursIn_eq_false_iff (by decide)).1 (by decide)⟩
  rintro t ⟨⟩
  exact ⟨by decide, by decide, by decide⟩

/-- Without levels below it a form with a form in it gets no answer; as many as it has octets are
    enough. -/
theorem nesting_bounded_envelope :
    letter.Within envelope ∧ letter.body.length < envelope.body.length ∧
      [envelope, letter].IsChain (fun outer inner => inner.Within outer) ∧
      [letter].length ≤ envelope.body.length ∧
      (ofPartsWithin 0 envelope.boundary envelope.body).run = none ∧
      (ofPartsWithin envelope.body.length envelope.boundary envelope.body).run =
        some (ofParts envelope.boundary envelope.body) := by
  have hboundary : 13 ∉ Utf8.encode "out".toList := by decide
  have hall : List.Forall₂ FormPart.ReadAs [enclosed] envelope.parts :=
    (ofBody_render hboundary (List.forall_mem_singleton.2 enclosed_wellFormed)).1
  obtain ⟨part, others, hread, hothers, hparts⟩ := List.forall₂_cons_left_iff.1 hall
  rw [List.forall₂_nil_left_iff.1 hothers] at hparts
  -- the one part of the envelope is the letter
  have hbody : letter.body = part.body := hread.body.symm
  have hne : part.body.isEmpty = false := by
    rw [← hbody]
    decide
  have hkind : partKind part.contentType? = .multipart := by
    rw [hread.contentType]
    decide
  have hinner : boundary? (part.contentType?.getD []) = some letter.boundary := by
    rw [hread.contentType]
    exact boundary?_formType (by decide) (by decide)
  have hwithin : letter.Within envelope :=
    ⟨part, hparts ▸ List.mem_cons_self, List.isEmpty_eq_false_iff.1 hne, hkind, hinner, hbody⟩
  have hnone : (ofPartsWithin 0 envelope.boundary envelope.body).run = none := by
    have hsplit : (Parts.ofBody (Utf8.encode envelope.boundary) envelope.body).parts = [part] :=
      hparts
    rw [ofPartsWithin, partsBy, hsplit, List.mapM_cons, fieldBy, partBy, hne,
      if_neg Bool.false_ne_true, hkind, decodeBy, hinner]
    rfl
  have hchain : [envelope, letter].IsChain fun outer inner => inner.Within outer :=
    .cons_cons hwithin (.singleton _)
  obtain ⟨-, hstep, -, hdepth, hlevels⟩ := nesting_bounded envelope.boundary envelope.body
  exact ⟨hwithin, hstep letter hwithin, hchain, hdepth [letter] hchain, hnone,
    (hlevels _ le_rfl).1⟩

end Payload

end SessionGateway
