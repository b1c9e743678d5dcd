/-
  Kinds and parameters — what the parameters of a type do to the kind of a body.

  The rules for a header stand in an order, and the first that fits it wins (`rules`).  All but one
  of them look for a word, which may as well stand in a parameter.  So a header has two ranks, the
  one of its type and the one of its parameters, and the lower one decides.

  * `Media.essence_lower`, `Media.essence_essence`: the type alone, in small letters;
  * `Kind.rank_eq_min`: the first rule that fits a header fits its type or its parameters;
  * `Kind.ofHeader_eq`: the kind of a header, from its type and its parameters;
  * `Kind.parameters_ignored_iff`: when the parameters make no difference, and when a form is split
    into fields.
-/
import Mathlib.Data.List.TakeWhile
import SessionGateway.Proofs.Dispatch.Admission
import SessionGateway.Proofs.Payload.Forms

namespace SessionGateway

/-! ## Small letters -/

/-- A class of characters that has both forms of a letter or none. -/
theorem comp_toLower {p : Char → Bool}
    (h : ∀ n : Fin 128, p (Char.ofNat n.val).toLower = p (Char.ofNat n.val)) :
    p ∘ Char.toLower = p := by
  funext c
  by_cases hc : c.toNat < 128
  · have hletter := h ⟨c.toNat, hc⟩
    rwa [Char.ofNat_toNat] at hletter
  · have hcapital : ¬ (c.val ≥ 'A'.val ∧ c.val ≤ 'Z'.val) := fun hz =>
      hc (Nat.lt_of_le_of_lt (UInt32.le_iff_toNat_le.1 hz.2) (by decide))
    have hsame : c.toLower = c := dif_neg hcapital
    rw [Function.comp_apply, hsame]

namespace Media

/-- What stands behind the type: the parameters. -/
def parameters (header : Text) : Text := header.dropWhile (· != ';')

theorem lower_parameters (header : Text) :
    parameters header.lower = (parameters header).lower := by
  have hsep : (· != ';') ∘ Char.toLower = (· != ';') := comp_toLower (by decide)
  rw [parameters, Text.lower, List.dropWhile_map, hsep]
  rfl

theorem essence_lower (header : Text) : essence header.lower = (essence header).lower := by
  have hsep : (· != ';') ∘ Char.toLower = (· != ';') := comp_toLower (by decide)
  have hblank : Text.isBlank ∘ Char.toLower = Text.isBlank := comp_toLower (by decide)
  rw [essence, Text.lower, List.takeWhile_map, hsep, Text.trim, trimBy_map hblank]
  rfl

/-- A type has no parameters. -/
theorem essence_essence (header : Text) : essence (essence header) = essence header := by
  have hnone : ∀ c ∈ essence header, (c != ';') = true := by
    intro c hc
    have hmem : c ∈ header.takeWhile (· != ';') :=
      (List.dropWhile_suffix _).subset (List.mem_reverse.1
        ((List.dropWhile_suffix _).subset (List.mem_reverse.1 hc)))
    exact List.mem_takeWhile_imp (p := (· != ';')) hmem
  have htype : (essence header).takeWhile (· != ';') = essence header :=
    List.takeWhile_eq_self_iff.2 hnone
  rw [essence, htype, essence, Text.trim, Text.trim, trimBy_trimBy]

/-- The parameters begin with a semicolon. -/
theorem parameters_cases (header : Text) :
    parameters header = [] ∨ ∃ rest, parameters header = ';' :: rest := by
  have hhead := List.head?_dropWhile_not (· != ';') header
  rw [← parameters] at hhead
  cases hp : parameters header with
  | nil => exact .inl rfl
  | cons c rest =>
    rw [hp] at hhead
    obtain rfl : c = ';' := by simpa using hhead
    exact .inr ⟨rest, rfl⟩

theorem essence_parameters (header : Text) : essence (parameters header) = [] := by
  obtain hp | ⟨rest, hp⟩ := parameters_cases header <;> rw [hp] <;> rfl

section
variable {word : Text} (hne : word ≠ []) (hsep : ';' ∉ word)
  (hblank : ∀ c ∈ word, Text.isBlank c = false)
include hne hsep hblank

/-- **A word stands in a header** exactly if it stands in the type or in the parameters. -/
theorem occursIn_header (header : Text) :
    occursIn word header =
      (occursIn word (essence header) || occursIn word (parameters header)) := by
  have hnil : occursIn word [] = false :=
    (occursIn_eq_false_iff hne).2 fun h => hne (List.infix_nil.1 h)
  have htype : occursIn word (essence header) =
      occursIn word (header.takeWhile (· != ';')) := by
    rw [Bool.eq_iff_iff, occursIn_eq_true_iff hne, occursIn_eq_true_iff hne]
    exact infix_trimBy_iff hne hblank
  have hheader : header.takeWhile (· != ';') ++ parameters header = header :=
    List.takeWhile_append_dropWhile
  rw [htype]
  obtain hp | ⟨rest, hp⟩ := parameters_cases header
  · rw [hp, List.append_nil] at hheader
    rw [hheader, hp, hnil, Bool.or_false]
  · rw [hp] at hheader
    have hrest := occursIn_append_cons hsep hne [] rest
    rw [hnil, Bool.false_or, List.nil_append] at hrest
    nth_rewrite 1 [← hheader]
    rw [occursIn_append_cons hsep hne, hp, hrest]

end

end Media

namespace Kind

/-! ## Rules -/

/-- A rule: the kind of a header that has a word in it, or of which the word is the whole type. -/
structure Rule where
  word : Text
  whole : Bool
  kind : Kind
  deriving DecidableEq

/-- Whether a header, in small letters, is as a rule says. -/
def Rule.fits (r : Rule) (header : Text) : Bool :=
  if r.whole then Media.essence header == r.word else occursIn r.word header

/-- The rules for a header, in their order. -/
def rules : List Rule :=
  [⟨"openxml".toList, false, binary⟩, ⟨"json".toList, false, json⟩, ⟨"xml".toList, false, xml⟩,
    ⟨"text".toList, false, text⟩, ⟨"multipart".toList, false, multipart⟩, ⟨formType, true, form⟩,
    ⟨"octet-stream".toList, false, binary⟩, ⟨"application".toList, false, binary⟩]

/-- The place of the first rule that fits a header. -/
def rank (header : Text) : Nat := rules.findIdx (·.fits header.lower)

/-- The kind that the rule at a place gives; there is none behind the last one. -/
def kindAt (i : Nat) : Kind := (rules[i]?.map Rule.kind).getD other

/-- The kind that the first fitting one of some rules gives. -/
theorem foldr_fits (header : Text) (rs : List Rule) :
    rs.foldr (fun r k => if r.fits header then r.kind else k) other =
      (rs[rs.findIdx (·.fits header)]?.map Rule.kind).getD other := by
  induction rs with
  | nil => rfl
  | cons r rs ih =>
    rw [List.foldr_cons, List.findIdx_cons]
    cases r.fits header with
    | true => rfl
    | false => exact ih

/-- **The first rule that fits decides.** -/
theorem ofHeader_eq_kindAt (header : Text) : ofHeader (some header) = kindAt (rank header) := by
  rw [ofHeader, kindAt, rank, ← foldr_fits, ofLower, ite_or]
  simp only [← beq_iff_eq (a := Media.essence header.lower)]
  rfl

/-! ## Types and parameters -/

/-- A rule fits a header exactly if it fits its type or its parameters. -/
theorem fits_lower {r : Rule} (hr : r ∈ rules) (header : Text) :
    r.fits header.lower =
      (r.fits (Media.essence header).lower || r.fits (Media.parameters header).lower) := by
  have hwords : ∀ r ∈ rules, r.word ≠ [] ∧ ';' ∉ r.word ∧ ∀ c ∈ r.word, Text.isBlank c = false := by
    decide
  obtain ⟨hne, hsep, hblank⟩ := hwords r hr
  unfold Rule.fits
  split
  · have hempty : (Text.lower [] == r.word) = false := beq_eq_false_iff_ne.2 (Ne.symm hne)
    rw [Media.essence_lower, Media.essence_lower, Media.essence_essence, Media.essence_lower,
      Media.essence_parameters, hempty, Bool.or_false]
  · rw [Media.occursIn_header hne hsep hblank, Media.essence_lower, Media.lower_parameters]

/-- Of two classes, the first element of either is the earlier one of their first elements. -/
theorem findIdx_eq_min {p q : Rule → Bool} {rs : List Rule} {fits : Rule → Bool}
    (h : ∀ r ∈ rs, fits r = (p r || q r)) :
    rs.findIdx fits = min (rs.findIdx p) (rs.findIdx q) := by
  induction rs with
  | nil => rfl
  | cons r rs ih =>
    rw [List.forall_mem_cons] at h
    rw [List.findIdx_cons, List.findIdx_cons, List.findIdx_cons, h.1, ih h.2]
    cases p r <;> cases q r <;> simp [Nat.succ_min_succ]

/-- **The first rule that fits a header** is the first one that fits its type or its parameters. -/
theorem rank_eq_min (header : Text) :
    rank header = min (rank (Media.essence header)) (rank (Media.parameters header)) :=
  findIdx_eq_min fun _ hr => fits_lower hr header

/-- **The parameters make no difference** unless a word in them comes before all that the type has,
    and for another kind. -/
theorem ofHeader_parameters_iff (header : Text) :
    ofHeader (some header) = ofHeader (some (Media.essence header)) ↔
      rank (Media.essence header) ≤ rank (Media.parameters header) ∨
        ofHeader (some (Media.parameters header)) = ofHeader (some (Media.essence header)) := by
  rw [ofHeader_eq_kindAt, rank_eq_min]
  by_cases hle : rank (Media.essence header) ≤ rank (Media.parameters header)
  · rw [Nat.min_eq_left hle, ← ofHeader_eq_kindAt]
    exact iff_of_true rfl (.inl hle)
  · rw [Nat.min_eq_right (Nat.le_of_not_le hle), ← ofHeader_eq_kindAt, or_iff_right hle]

/-! ## Forms -/

/-- A place is not behind the first rule that fits exactly if no rule in front of the place fits. -/
theorem le_rank_iff {header : Text} {i : Nat} (hi : i < rules.length) :
    i ≤ rank header ↔ ∀ r ∈ rules.take i, r.fits header.lower = false := by
  rw [rank]
  constructor
  · intro h r hr
    obtain ⟨j, hj, rfl⟩ := List.mem_take_iff_getElem.1 hr
    have hlt : j < rules.findIdx (·.fits header.lower) := by omega
    exact List.not_of_lt_findIdx hlt
  · intro h
    exact List.le_findIdx_of_not hi fun j hj =>
      h _ (List.mem_take_iff_getElem.2 ⟨j, by omega, rfl⟩)

/-- The type of a form in parts. -/
def partsType : Text := "multipart/form-data".toList

/-- The words that stand before the one for forms in parts. -/
def foreignWords : List Text := ["json".toList, "xml".toList, "text".toList]

section
variable {header : Text} (htype : (Media.essence header).lower = partsType)
include htype

theorem rank_partsType : rank (Media.essence header) = 4 := by
  rw [rank, htype]
  decide

/-- A form in parts is of one of the five kinds that a word stands for. -/
theorem ofHeader_partsType :
    ∃ n < 5, n = min 4 (rank (Media.parameters header)) ∧ ofHeader (some header) = kindAt n := by
  refine ⟨_, by omega, rfl, ?_⟩
  rw [ofHeader_eq_kindAt, rank_eq_min, rank_partsType htype]

/-- **A form in parts is known as one** exactly if no other word stands in its parameters. -/
theorem ofHeader_partsType_iff :
    ofHeader (some header) = multipart ↔
      ∀ word ∈ foreignWords, occursIn word (Media.parameters header).lower = false := by
  have hkinds : ∀ n < 5, kindAt n = multipart ↔ n = 4 := by decide
  obtain ⟨n, hn, rfl, hkind⟩ := ofHeader_partsType htype
  have hmin : min 4 (rank (Media.parameters header)) = 4 ↔ 4 ≤ rank (Media.parameters header) := by
    omega
  rw [hkind, hkinds _ hn, hmin, le_rank_iff (by decide)]
  constructor
  · intro h word hword
    have hrule : ∀ word ∈ foreignWords, ∃ r ∈ rules.take 4, r.word = word ∧ r.whole = false := by
      decide
    obtain ⟨r, hr, rfl, hwhole⟩ := hrule word hword
    have hfits := h r hr
    rwa [Rule.fits, hwhole, if_neg Bool.false_ne_true] at hfits
  · intro h r hr
    -- the first rule looks for a word that has another one in it
    have hword : ∀ r ∈ rules.take 4, r.word ≠ [] ∧ r.whole = false ∧
        ∃ word ∈ foreignWords, word ≠ [] ∧ occursIn word r.word = true := by
      decide
    obtain ⟨hne, hwhole, word, hword, hne', hpart⟩ := hword r hr
    have hpart : word <:+: r.word := (occursIn_eq_true_iff hne').1 hpart
    rw [Rule.fits, hwhole, if_neg Bool.false_ne_true, occursIn_eq_false_iff hne]
    exact fun hin => (occursIn_eq_false_iff hne').1 (h word hword) (hpart.trans hin)

end

end Kind

/-! ## Bodies -/

namespace Payload

/-- Only forms have fields. -/
theorem exists_fields_iff {kind : Kind} {header : Option Text} {body : Bytes} {charset : Charset}
    {p : Payload} (h : decode kind header body charset = .ok p) :
    (∃ fs, p = .fields fs) ↔ kind = .multipart ∨ kind = .form := by
  have hpiece : kind ≠ .multipart → ofBody kind body charset = .ok p := fun hkind => by
    rwa [decode.eq_2 _ _ _ _ hkind] at h
  cases kind with
  | multipart =>
    refine iff_of_true ?_ (.inl rfl)
    rw [decode] at h
    split at h
    · next boundary _ =>
      rw [ofParts_eq] at h
      cases hfields : (Multipart.Parts.ofBody (Utf8.encode boundary) body).parts.mapM fieldOf with
      | error fault =>
        rw [hfields] at h
        cases h
      | ok fields =>
        rw [hfields] at h
        dsimp only [Except.bind] at h
        split at h
        · exact ⟨fields, (Except.ok.inj h).symm⟩
        · cases h
    · cases h
  | form =>
    cases hpiece (by decide)
    exact iff_of_true ⟨_, rfl⟩ (.inr rfl)
  | json | xml =>
    have hp := hpiece (by decide)
    rw [ofBody] at hp
    split at hp
    · cases hp
      simp
    · cases hp
  | text | binary =>
    cases hpiece (by decide)
    simp [ofText]
  | other => cases hpiece (by decide)

end Payload

namespace Kind

/-- **Parameters do not change the kind of a body**, unless a word in them comes first. -/
theorem parameters_ignored_iff (header : Text) :
    (ofHeader (some header) = ofHeader (some (Media.essence header)) ↔
      rank (Media.essence header) ≤ rank (Media.parameters header) ∨
        ofHeader (some (Media.parameters header)) = ofHeader (some (Media.essence header))) ∧
    ((Media.essence header).lower = partsType →
      (ofHeader (some header) = multipart ↔
        ∀ word ∈ foreignWords, occursIn word (Media.parameters header).lower = false) ∧
      ∀ h body limit decoded, h.text? HeaderName.contentType = some header →
        Call.readBody h body limit = .ok decoded →
          decoded.kind = ofHeader (some header) ∧
            ((∃ fs, decoded.payload = .fields fs) ↔ ofHeader (some header) = multipart)) := by
  refine ⟨ofHeader_parameters_iff header, fun htype => ⟨ofHeader_partsType_iff htype, ?_⟩⟩
  intro h body limit decoded hheader hread
  have hkinds : ∀ n < 5, kindAt n ≠ other ∧ kindAt n ≠ form := by decide
  obtain ⟨n, hn, -, hkind⟩ := ofHeader_partsType htype
  obtain ⟨hother, hform⟩ := hkinds n hn
  rw [← hkind] at hother hform
  obtain ⟨-, -, -, hclassify, -, hdecode⟩ := Call.readBody_eq_ok_iff.1 hread
  rw [hheader, classify, orElse, if_neg hother] at hclassify
  rw [Payload.exists_fields_iff hdecode, ← hclassify, or_iff_left hform]
  exact ⟨rfl, Iff.rfl⟩

/-- A form with one empty field and a boundary without a word. -/
theorem parameters_ignored_note :
    let header := Multipart.formType "XyZ".toList
    let h : Headers := ⟨[(HeaderName.contentType, Utf8.encode header)]⟩
    let note : Multipart.FormPart := ⟨"note".toList, none, none, []⟩
    let body := Multipart.render (Utf8.encode "XyZ".toList) [note]
    ∃ decoded, Call.readBody h body 256 = .ok decoded ∧
      decoded.kind = ofHeader (some (Media.essence header)) ∧
      ∃ fs, decoded.payload = .fields fs := by
  intro header h note body
  obtain ⟨hsame, hform⟩ := parameters_ignored_iff header
  obtain ⟨hwords, hfields⟩ := hform (by decide)
  have hkind : ofHeader (some header) = multipart := hwords.2 (by decide)
  have hheader : h.text? HeaderName.contentType = some header := by decide
  have hnote : note.WellFormed (Utf8.encode "XyZ".toList) :=
    ⟨by decide, nofun, nofun, (occursIn_eq_false_iff (by decide)).1 (by decide)⟩
  have hdecode : ∃ p, Payload.decode .multipart (some header) body (Call.charsetOf (some header)) =
      .ok p :=
    ⟨_, Payload.decode_render_eq (by decide) (by decide) (List.forall_mem_singleton.2 hnote) _⟩
  obtain ⟨p, hp⟩ := hdecode
  have hread : Call.readBody h body 256 = .ok ⟨p, multipart⟩ := by
    refine Call.readBody_eq_ok_iff.2 ⟨nofun, by decide, by decide, ?_, nofun, ?_⟩
    · rw [hheader, classify, hkind]
      rfl
    · rw [hheader]
      exact hp
  obtain ⟨hk, hfs⟩ := hfields h body 256 _ hheader hread
  exact ⟨_, hread, hk.trans (hsame.2 (.inl (by decide))), hfs.2 hkind⟩

/-- A boundary with a word in it. -/
theorem parameters_collide :
    let header := "multipart/form-data; boundary=json".toList
    ofHeader (some header) = json ∧ ofHeader (some (Media.essence header)) = multipart := by
  decide

end Kind

end SessionGateway
