/-
  Edits of drafts — the single changes that every response is made of.

  An edit sets or adds one header, or replaces the status or the body (`Edit`); the name of a
  header that an edit writes is a token.  One draft becomes another (`Draft.Becomes`) by some edits
  in order, and every writer of a draft is such a list of edits.

  * `edited_safe`: from headers that are safe, each edit leaves safe headers, so there is never a
    control character in a name or a value (`Headers.Safe`);
  * `Draft.Law`: a relation between drafts that every edit of a service keeps to; so do the writers
    of failures, of results, of properties and of the headers of an operation;
  * `Becomes.law`, `becomes_crossOrigin`: all of these are edits, and so are the cross-origin
    headers that a response begins with.
-/
import SessionGateway.Dispatch.Service
import SessionGateway.Proofs.Http.Headers

namespace SessionGateway

/-! ## Safe headers -/

namespace Header

/-- A header name: a token, and not empty. -/
structure IsName (name : Text) : Prop where
  ne_nil : name ≠ []
  token : ∀ c ∈ name, isToken c = true

instance (name : Text) : Decidable (IsName name) :=
  decidable_of_iff (name ≠ [] ∧ ∀ c ∈ name, isToken c = true)
    ⟨fun h => ⟨h.1, h.2⟩, fun h => ⟨h.ne_nil, h.token⟩⟩

/-- What a text names is a header name. -/
theorem isName_of_name? {t name : Text} (h : name? t = some name) : IsName name := by
  unfold name? at h
  split at h
  · next hc =>
    simp only [Bool.and_eq_true, Bool.not_eq_true', List.isEmpty_eq_false_iff,
      decide_eq_true_eq, List.all_eq_true] at hc
    cases h
    refine ⟨by simpa [Text.lower] using hc.1.1, fun c hm => ?_⟩
    obtain ⟨d, hd, rfl⟩ := List.mem_map.1 hm
    exact isToken_toLower (hc.2 d hd)
  · cases h

/-- A value without control characters: below the space only the tab, and no delete. -/
def IsSafe (value : Bytes) : Prop :=
  ∀ b ∈ value, (b.toNat < 0x20 → b.toNat = 9) ∧ b.toNat ≠ 0x7F

theorem isSafe_of_ofText? {t : Text} {value : Bytes} (h : ofText? t = some value) :
    IsSafe value := by
  obtain ⟨hw, rfl⟩ := ofText?_eq_some_iff.1 h
  intro b hb
  have := (isAllowed_iff b).1 (List.all_eq_true.1 ((all_isAllowed_encode t).2 hw) b hb)
  omega

end Header

namespace Headers

/-- Every header has a token for a name and a value without control characters. -/
def Safe (h : Headers) : Prop := ∀ e ∈ h.entries, Header.IsName e.1 ∧ Header.IsSafe e.2

variable {h : Headers} {name : Text}

theorem safe_empty : empty.Safe := nofun

theorem Safe.erase (hs : h.Safe) (name : Text) : (h.erase name).Safe :=
  fun e he => hs e (mem_erase.1 he).1

theorem Safe.set (hs : h.Safe) (hn : Header.IsName name) (t : Text) : (h.set name t).Safe := by
  unfold Headers.set
  split
  · next value hv =>
    intro e he
    rcases mem_insert he with he | rfl
    · exact hs e he
    · exact ⟨hn, Header.isSafe_of_ofText? hv⟩
  · exact hs

theorem Safe.add (hs : h.Safe) (hn : Header.IsName name) (t : Text) : (h.add name t).Safe := by
  unfold Headers.add
  split
  · next value hv =>
    intro e he
    rcases mem_append.1 he with he | rfl
    · exact hs e he
    · exact ⟨hn, Header.isSafe_of_ofText? hv⟩
  · exact hs

end Headers

/-! ## Edits -/

/-- One change of a draft. -/
inductive Edit where
  /-- Gives a header one value in place of those it has; a text that no value can write changes
      nothing. -/
  | set (name : Text) (isName : Header.IsName name) (t : Text)
  /-- Adds a value to a header; a text that no value can write changes nothing. -/
  | add (name : Text) (isName : Header.IsName name) (t : Text)
  /-- A status without a body. -/
  | status (status : Nat)
  | body (body : Bytes)

/-- The draft after an edit. -/
def Edit.apply : Edit → Draft → Draft
  | set name _ t, d => d.setHeader name t
  | add name _ t, d => d.addHeader name t
  | status n, d => d.statusOnly n
  | body bs, d => { d with body := bs }

/-- **An edit leaves safe headers safe.** -/
theorem Edit.apply_safe (e : Edit) {d : Draft} (h : d.headers.Safe) : (e.apply d).headers.Safe := by
  cases e with
  | set name hn t => exact h.set hn t
  | add name hn t => exact h.add hn t
  | status n => exact h.erase _
  | body bs => exact h

namespace Draft

/-- The draft after some edits, in order. -/
def edited (d : Draft) (edits : List Edit) : Draft := edits.foldl (fun d e => e.apply d) d

theorem edited_append (d : Draft) (edits more : List Edit) :
    d.edited (edits ++ more) = (d.edited edits).edited more := List.foldl_append

/-- So do any number of edits. -/
theorem edited_safe {d : Draft} (h : d.headers.Safe) (edits : List Edit) :
    (d.edited edits).headers.Safe := by
  induction edits generalizing d with
  | nil => exact h
  | cons e edits ih => exact ih (e.apply_safe h)

/-- One draft is made from another by edits. -/
def Becomes (d d' : Draft) : Prop := ∃ edits, d' = d.edited edits

namespace Becomes
variable {d d' d'' : Draft}

theorem refl (d : Draft) : d.Becomes d := ⟨[], rfl⟩

theorem trans (h : d.Becomes d') (h' : d'.Becomes d'') : d.Becomes d'' := by
  obtain ⟨edits, rfl⟩ := h
  obtain ⟨more, rfl⟩ := h'
  exact ⟨edits ++ more, (d.edited_append edits more).symm⟩

/-- One more header that is set. -/
theorem setHeader (h : d.Becomes d') {name : Text} (hn : Header.IsName name) (t : Text) :
    d.Becomes (d'.setHeader name t) :=
  h.trans ⟨[.set name hn t], rfl⟩

/-- One more header that is added. -/
theorem addHeader (h : d.Becomes d') {name : Text} (hn : Header.IsName name) (t : Text) :
    d.Becomes (d'.addHeader name t) :=
  h.trans ⟨[.add name hn t], rfl⟩

theorem statusOnly (h : d.Becomes d') (status : Nat) : d.Becomes (d'.statusOnly status) :=
  h.trans ⟨[.status status], rfl⟩

theorem withBody (h : d.Becomes d') (body : Bytes) : d.Becomes { d' with body } :=
  h.trans ⟨[.body body], rfl⟩

end Becomes

end Draft

/-! ## Laws -/

/-- What a service says about the headers that a page may read, behind those that it accepts. -/
def Service.announced (headers : Text) : Text :=
  headers ++ ", ".toList ++ HeaderName.nodebug ++ ", ".toList ++ Properties.headerName

namespace Draft

/-- The headers that a service sets to texts of its own, once a response has begun. -/
def settableNames : List Text :=
  [HeaderName.allow, HeaderName.allowHeaders, HeaderName.cacheControl, HeaderName.pragma,
    HeaderName.expires, HeaderName.contentType, HeaderName.challenge, Properties.headerName]

/-- A law of the edits that a service makes: what holds between a draft and any that it becomes. -/
structure Law (R : Draft → Draft → Prop) : Prop where
  refl (d : Draft) : R d d
  trans {d d' d'' : Draft} : R d d' → R d' d'' → R d d''
  set (d : Draft) {name : Text} : name ∈ settableNames → ∀ t, R d (d.setHeader name t)
  expose (d : Draft) (headers : Text) :
    R d (d.setHeader HeaderName.exposeHeaders (Service.announced headers))
  add (d : Draft) {name : Text} : Header.IsName name → ∀ t, R d (d.addHeader name t)
  statusOnly (d : Draft) (status : Nat) : R d (d.statusOnly status)
  withBody (d : Draft) (body : Bytes) : R d { d with body }

namespace Law
variable {R : Draft → Draft → Prop} (law : Law R) {d d' : Draft}
include law

/-- One more header that is set. -/
theorem andSet (h : R d d') {name : Text} (hn : name ∈ settableNames) (t : Text) :
    R d (d'.setHeader name t) := law.trans h (law.set d' hn t)

theorem noCache (d : Draft) : R d d.noCache :=
  law.andSet (law.andSet (law.set d (by decide) _) (by decide) _) (by decide) _

theorem send (d : Draft) (e : Encoded) : R d (d.send e) :=
  law.trans (law.set d (by decide) _) (law.withBody _ e.body)

/-- **A failure is turned into a response by edits**, with its challenge and its body. -/
theorem fail (d : Draft) (e : GatewayError) : R d (d.fail e) := by
  have hc : R d ((d.statusOnly e.status).challenged e) := by
    cases e with
    | unauthenticated realm => exact law.andSet (law.statusOnly d _) (by decide) _
    | _ => exact law.statusOnly d _
  unfold Draft.fail
  split
  · exact law.trans (law.andSet hc (by decide) _) (law.withBody _ _)
  · exact hc

/-- The headers that an operation names are added by edits, whatever its result is. -/
theorem addHeaders (d : Draft) (items : List Json) : R d (Service.addHeaders d items) := by
  have hnamed : ∀ e ∈ items.filterMap Service.headerOf?, Header.IsName e.1 := by
    intro e he
    obtain ⟨item, -, hi⟩ := List.mem_filterMap.1 he
    unfold Service.headerOf? at hi
    split at hi
    · obtain ⟨pair, -, hm⟩ := Option.bind_eq_some_iff.1 hi
      obtain ⟨n, hn, rfl⟩ := Option.map_eq_some_iff.1 hm
      exact Header.isName_of_name? hn
    · split at hi
      · obtain ⟨n, hn, rfl⟩ := Option.map_eq_some_iff.1 hi
        exact Header.isName_of_name? hn
      · cases hi
    · cases hi
  unfold Service.addHeaders
  generalize items.filterMap Service.headerOf? = headers at hnamed
  induction headers generalizing d with
  | nil => exact law.refl d
  | cons e headers ih =>
    rw [List.forall_mem_cons] at hnamed
    exact law.trans (law.add d hnamed.1 e.2) (ih _ hnamed.2)

/-- The properties of a session are written by edits: one header, and one cookie for each. -/
theorem writeTo (d : Draft) (p : Properties) (path : Text) (secure : Bool) :
    R d { d with headers := p.writeTo path secure d.headers } := by
  have hcookies : ∀ (entries : List (Text × Text)) (h : Headers), R d { d with headers := h } →
      R d { d with headers := (entries.foldl
        (fun h e => h.add "set-cookie".toList (Properties.setCookie path secure e.1 e.2)) h) } := by
    intro entries
    induction entries with
    | nil => exact fun _ h => h
    | cons e entries ih => exact fun h hb => ih _ (law.trans hb (law.add _ (by decide) _))
  unfold Properties.writeTo
  split
  · exact law.refl d
  · exact hcookies _ _ (law.set d (by decide) _)

end Law

/-- **To be made by edits is a law**: every name that a service sets is a token. -/
theorem Becomes.law : Law Becomes where
  refl := .refl
  trans := .trans
  set d _ hn := (Becomes.refl d).setHeader
    ((by decide : ∀ name ∈ settableNames, Header.IsName name) _ hn)
  expose d _ := (Becomes.refl d).setHeader (by decide) _
  add d _ hn := (Becomes.refl d).addHeader hn
  statusOnly d := (Becomes.refl d).statusOnly
  withBody d := (Becomes.refl d).withBody

variable (d : Draft)

/-- The cross-origin headers are set by edits, whatever the request announces. -/
theorem becomes_crossOrigin (h : Headers) (nodebug : Bool) :
    d.Becomes (CrossOrigin.apply d h nodebug) := by
  have horigin : ∀ t : Text, d.Becomes (((d.setHeader HeaderName.allowOrigin t).setHeader
      HeaderName.maxAge CrossOrigin.age).setHeader HeaderName.allowCredentials "true".toList) :=
    fun t => (((Becomes.refl d).setHeader (by decide) t).setHeader (by decide) _).setHeader
      (by decide) _
  unfold CrossOrigin.apply
  dsimp only
  split
  · split
    · exact ((((horigin _).setHeader (by decide) _).setHeader (by decide) _).setHeader
        (by decide) _)
    · exact (((horigin _).setHeader (by decide) _).setHeader (by decide) _)
  · split
    · exact (((horigin _).setHeader (by decide) _).setHeader (by decide) _)
    · exact ((horigin _).setHeader (by decide) _)

end Draft

end SessionGateway
