/-
  Cross-origin headers — which responses a page of another origin may read.

  A response carries the cross-origin headers for a request (`CrossOrigin.Carries`) if it names the
  origin of the request, says how long a preflight holds, admits credentials, and lists the header of
  the properties among those that a page may read.

  * `carries_opening`: every response of a dispatch begins with them;
  * `carries_law`: no edit of a service takes them away, so they are still there at its end;
  * `handle_carries_iff`: a response carries them exactly if its request has a path that is a text
    without its escapes, for the two responses to other paths are made before a dispatch begins.
-/
import SessionGateway.Proofs.Dispatch.Admission
import SessionGateway.Proofs.Dispatch.Drafting

namespace SessionGateway

variable {σ : Type}

/-! ## Values -/

namespace Header

/-- A value that lists a name, between commas. -/
def Lists (value : Bytes) (name : Text) : Prop :=
  ∃ t, value = Utf8.encode t ∧ name ∈ (t.splitOn ',').map Text.trim

/-- What a response begins with lists the header of the properties. -/
theorem lists_exposed (nodebug : Bool) :
    Lists (Utf8.encode (CrossOrigin.exposed nodebug)) Properties.headerName :=
  ⟨_, rfl, by cases nodebug <;> decide +kernel⟩

/-- So does what a service announces, whatever stands in front of it. -/
theorem lists_announced (headers : Text) :
    Lists (Utf8.encode (Service.announced headers)) Properties.headerName := by
  refine ⟨_, rfl, List.mem_map.2 ⟨' ' :: Properties.headerName, ?_, by decide⟩⟩
  have hlast : Service.announced headers =
      (headers ++ ", ".toList ++ HeaderName.nodebug) ++ ',' :: ' ' :: Properties.headerName := by
    simp [Service.announced]
  rw [hlast, List.splitOn_append_cons_self]
  exact List.mem_append_right _ (by decide +kernel)

end Header

namespace Draft
variable {d : Draft} {name other : Text}

theorem get?_setHeader_of_ne (hn : other ≠ name) (t : Text) :
    (d.setHeader name t).headers.get? other = d.headers.get? other :=
  d.headers.get?_set_of_ne t hn

theorem get?_setHeader_self {t : Text} (ht : ∀ c ∈ t, Header.Writable c) :
    (d.setHeader name t).headers.get? name = some (Utf8.encode t) := by
  rw [setHeader, Headers.get?_set_self, Header.ofText?_of_writable ht, Option.some_or]

/-- A header that is added does not come in front of one that is there. -/
theorem get?_addHeader {value : Bytes} (h : d.headers.get? other = some value) (t : Text) :
    (d.addHeader name t).headers.get? other = some value := by
  have hall := Headers.get?_eq_head? d.headers other
  rw [addHeader]
  by_cases hn : other = name
  · subst hn
    rw [Headers.get?_eq_head?, Headers.getAll_add, List.head?_append, ← hall, h, Option.some_or]
  · rw [Headers.get?_add_of_ne _ _ hn, h]

theorem get?_statusOnly (hn : other ≠ HeaderName.contentType) (status : Nat) :
    (d.statusOnly status).headers.get? other = d.headers.get? other :=
  d.headers.get?_erase_of_ne hn

end Draft

/-! ## Drafts -/

namespace CrossOrigin

/-- The names of the headers that every response is to carry. -/
def names : List Text :=
  [HeaderName.allowOrigin, HeaderName.maxAge, HeaderName.allowCredentials, HeaderName.exposeHeaders]

/-- A response with the cross-origin headers for a request with the given headers. -/
structure Carries (h : Headers) (d : Draft) : Prop where
  origin : d.headers.get? HeaderName.allowOrigin =
    some (Utf8.encode ((h.text? HeaderName.origin).getD ['*']))
  age : d.headers.get? HeaderName.maxAge = some (Utf8.encode age)
  credentials : d.headers.get? HeaderName.allowCredentials = some (Utf8.encode "true".toList)
  exposed : ∃ value, d.headers.get? HeaderName.exposeHeaders = some value ∧
    Header.Lists value Properties.headerName

variable {h : Headers} {d d' : Draft}

/-- What keeps the first values of these headers keeps the headers. -/
theorem Carries.congr (hc : Carries h d) (hkept : ∀ name ∈ names, ∀ value,
    d.headers.get? name = some value → d'.headers.get? name = some value) : Carries h d' where
  origin := hkept _ (by decide) _ hc.origin
  age := hkept _ (by decide) _ hc.age
  credentials := hkept _ (by decide) _ hc.credentials
  exposed := hc.exposed.imp fun _ hv => ⟨hkept _ (by decide) _ hv.1, hv.2⟩

/-- A service replaces at most the list of what a page may read, by one that is longer. -/
theorem Carries.expose (hc : Carries h d) (headers : Text) :
    Carries h (d.setHeader HeaderName.exposeHeaders (Service.announced headers)) where
  origin := (Draft.get?_setHeader_of_ne (by decide) _).trans hc.origin
  age := (Draft.get?_setHeader_of_ne (by decide) _).trans hc.age
  credentials := (Draft.get?_setHeader_of_ne (by decide) _).trans hc.credentials
  exposed := by
    rw [Draft.setHeader, Headers.get?_set_self]
    cases ht : Header.ofText? (Service.announced headers) with
    | none => exact hc.exposed
    | some value =>
      obtain ⟨-, rfl⟩ := Header.ofText?_eq_some_iff.1 ht
      exact ⟨_, rfl, Header.lists_announced headers⟩

/-- **To carry them is a law**: no edit of a service takes them away. -/
theorem carries_law (h : Headers) : Draft.Law fun d d' => Carries h d → Carries h d' where
  refl _ := id
  trans hd hd' := hd' ∘ hd
  set d name hn t hc := by
    have hne : ∀ other ∈ names, other ≠ name := fun other ho he =>
      (by decide : ∀ other ∈ names, other ∉ Draft.settableNames) other ho (he ▸ hn)
    exact hc.congr fun other ho _ hv => (Draft.get?_setHeader_of_ne (hne other ho) t).trans hv
  expose d headers hc := hc.expose headers
  add d name _ t hc := hc.congr fun _ _ _ hv => Draft.get?_addHeader hv t
  statusOnly d status hc := hc.congr fun other ho _ hv =>
    (Draft.get?_statusOnly ((by decide : ∀ n ∈ names, n ≠ HeaderName.contentType) other ho)
      status).trans hv
  withBody _ _ hc := ⟨hc.origin, hc.age, hc.credentials, hc.exposed⟩

/-- The origin of a request can be written. -/
theorem writable_origin (h : Headers) :
    ∀ c ∈ (h.text? HeaderName.origin).getD ['*'], Header.Writable c := by
  cases ho : h.text? HeaderName.origin with
  | none => decide
  | some t =>
    obtain ⟨value, -, ht⟩ := Option.bind_eq_some_iff.1 ho
    exact Header.writable_of_text? ht

theorem writable_exposed (nodebug : Bool) : ∀ c ∈ exposed nodebug, Header.Writable c := by
  cases nodebug <;> decide +kernel

/-- **Every response of a dispatch begins with them.** -/
theorem carries_opening (request : RequestHead) :
    Carries request.headers (Gateway.opening request) := by
  have horigin := writable_origin request.headers
  have hexposed := writable_exposed (asksNodebug request)
  unfold Gateway.opening apply
  dsimp only
  -- the two headers that not every response has
  split <;> split
  all_goals
    refine ⟨?_, ?_, ?_, _, ?_, Header.lists_exposed (asksNodebug request)⟩
    -- each value is the one that was set last under its name
    all_goals
      simp (disch := first | decide | assumption) only [Draft.get?_setHeader_of_ne,
        Draft.get?_setHeader_self]

theorem Carries.of_text? {h' : Headers} (hc : Carries h d)
    (horigin : h'.text? HeaderName.origin = h.text? HeaderName.origin) : Carries h' d :=
  ⟨by rw [horigin]; exact hc.origin, hc.age, hc.credentials, hc.exposed⟩

end CrossOrigin

/-! ## Responses -/

namespace Gateway

open CrossOrigin (Carries)

/-- A request whose path is a text without its escapes. -/
def HasPlainPath (request : RequestHead) : Prop :=
  ∃ rest plain, request.path = '/' :: rest ∧ Utf8.decode? (Percent.decode rest) = some plain

/-- What a response is given at its end touches none of the headers. -/
theorem get?_finished {name : Text} (hn : name ≠ RequestHead.idHeader) (method : Text) (id : Bytes)
    (d : Draft) : (trimmed method (named id d)).headers.get? name = d.headers.get? name := by
  have htrimmed : (trimmed method (named id d)).headers = (named id d).headers := by
    unfold trimmed
    split <;> rfl
  rw [htrimmed]
  unfold named
  split
  · rfl
  · exact Headers.get?_append_of_ne hn id

/-- A path that has a text is dispatched. -/
theorem carries_route (g : Gateway σ) {request : Request}
    (hpath : HasPlainPath request.toRequestHead) :
    Carries request.headers (g.route request).1 := by
  obtain ⟨rest, plain, hpath, hplain⟩ := hpath
  simp only [route, hpath, hplain]
  exact dispatch_obeys (CrossOrigin.carries_law request.headers) g _ request
    (CrossOrigin.carries_opening request.toRequestHead)

/-- Any other path is answered without a dispatch, and its response has no such header. -/
theorem get?_route_of_not_plain (g : Gateway σ) {request : Request}
    (hpath : ¬ HasPlainPath request.toRequestHead) :
    (g.route request).1.headers.get? HeaderName.allowOrigin = none := by
  unfold route
  split
  · next rest hrest =>
    split
    · next plain hplain => exact absurd ⟨rest, plain, hrest, hplain⟩ hpath
    · show unreadablePath.headers.get? HeaderName.allowOrigin = none
      decide +kernel
  · rfl

/-- **A response carries the cross-origin headers exactly if its request has a path that is a text
    without its escapes**: for every gateway, whatever it is configured to do and whatever its
    sessions hold, every method, every header and body, and every outcome. -/
theorem handle_carries_iff (g : Gateway σ) (freshId : Bytes) (request : Request) :
    Carries request.headers (g.handle freshId request).1 ↔
      HasPlainPath request.toRequestHead := by
  have hidentified : HasPlainPath (request.identified freshId).toRequestHead ↔
      HasPlainPath request.toRequestHead := by
    unfold HasPlainPath
    rw [Request.identified_path]
  rw [response_handle]
  constructor
  · intro hc
    refine Classical.byContradiction fun hpath => ?_
    have hnone := get?_route_of_not_plain g (mt hidentified.1 hpath)
    have horigin := hc.origin
    rw [get?_finished (by decide), hnone] at horigin
    cases horigin
  · intro hpath
    refine ((carries_route g (hidentified.2 hpath)).of_text?
      (Request.identified_text? request freshId (by decide)).symm).congr fun name hn value hv => ?_
    have hne : name ≠ RequestHead.idHeader :=
      (by decide : ∀ name ∈ CrossOrigin.names, name ≠ RequestHead.idHeader) name hn
    rw [get?_finished hne, hv]

/-- A path with an octet that is no text, and a target without a path: the two responses have no
    cross-origin header, whatever the origin of the request is. -/
theorem handle_bare_responses :
    let solution : Solution Unit := ⟨"crm".toList, true, []⟩
    let g : Gateway Unit := .new {} ⟨⟨[solution]⟩, []⟩ none ()
    let headers := Headers.ofList [(HeaderName.origin, Utf8.encode "https://page".toList)]
    let broken : Request := ⟨⟨"GET".toList, "/rest_ws/crm/%FF".toList, headers⟩, []⟩
    let star : Request := ⟨⟨"OPTIONS".toList, ['*'], headers⟩, []⟩
    (g.handle [] broken).1.status = 400 ∧ ¬ Carries headers (g.handle [] broken).1 ∧
      (g.handle [] star).1.status = 404 ∧ ¬ Carries headers (g.handle [] star).1 := by
  intro solution g headers broken star
  have hbroken : (g.handle [] broken).1.headers.get? HeaderName.allowOrigin = none := by
    decide +kernel
  have hstar : (g.handle [] star).1.headers.get? HeaderName.allowOrigin = none := by
    decide +kernel
  refine ⟨by decide +kernel, fun hc => ?_, by decide +kernel, fun hc => ?_⟩
  · cases hbroken.symm.trans hc.origin
  · cases hstar.symm.trans hc.origin

end Gateway

end SessionGateway
