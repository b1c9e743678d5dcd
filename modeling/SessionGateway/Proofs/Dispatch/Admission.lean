/-
  Admission — the requests that come as far as the pool.

  A gateway admits a request with a verb for a path (`Gateway.Admits`) if its method is
  dispatched, its path has a text and names a session and a scope, and its body, if the verb
  asks for one, is acceptable (`Call.Acceptable`).

  * `readBody_eq_ok_iff`: a body is read exactly if it is acceptable;
  * `route_of_admits`, `route_of_bodiless`: an admitted request is run as a call;
  * `route_of_not_admits`: any other request asks nothing of the pool or of a session;
  * `admits_identified`: the name that a request is given changes none of this.
-/
import SessionGateway.Gateway.Basic

namespace SessionGateway

variable {σ : Type}

/-! ## Bodies -/

namespace Call

/-- A body that passes the checks of its size and its type, and what it decodes to. -/
structure Acceptable (h : Headers) (body : Bytes) (limit : Nat) (decoded : DecodedBody) : Prop where
  declared : ∀ size, declaredSize? h = some size → size ≤ limit
  length_le : body.length ≤ limit
  ne_nil : body ≠ []
  kind : Kind.classify (h.text? HeaderName.contentType) (some body) .other = decoded.kind
  known : decoded.kind ≠ .other
  decode : Payload.decode decoded.kind (h.text? HeaderName.contentType) body
    (charsetOf (h.text? HeaderName.contentType)) = .ok decoded.payload

theorem within_limit_iff (h : Headers) (body : Bytes) (limit : Nat) :
    ¬ ((declaredSize? h).any (limit < ·) || limit < body.length) = true ↔
      (∀ size, declaredSize? h = some size → size ≤ limit) ∧ body.length ≤ limit := by
  cases declaredSize? h with
  | none => simp
  | some size =>
    simp only [Option.any_some, Bool.or_eq_true, decide_eq_true_eq, Option.some.injEq, forall_eq']
    omega

/-- **A body is read exactly if it is acceptable.** -/
theorem readBody_eq_ok_iff {h : Headers} {body : Bytes} {limit : Nat} {decoded : DecodedBody} :
    readBody h body limit = .ok decoded ↔ Acceptable h body limit decoded := by
  obtain ⟨payload, kind⟩ := decoded
  unfold readBody
  constructor
  · intro hr
    split at hr
    · cases hr
    next hsize =>
    obtain ⟨hd, hl⟩ := (within_limit_iff h body limit).1 hsize
    split at hr
    · cases hr
    next hne =>
    simp only at hr
    split at hr
    · cases hr
    next hk =>
    split at hr
    · next hdec =>
      cases hr
      exact ⟨hd, hl, by simpa using hne, rfl, hk, hdec⟩
    · cases hr
  · rintro ⟨hd, hl, hne, hkind, hk, hdec⟩
    simp only at hkind hk hdec
    subst hkind
    rw [if_neg ((within_limit_iff h body limit).2 ⟨hd, hl⟩), if_neg (by simpa using hne)]
    simp only [if_neg hk, hdec]

/-- Of the headers, only the declared size and the declared type count. -/
theorem acceptable_congr {h h' : Headers}
    (hsize : h'.text? HeaderName.contentLength = h.text? HeaderName.contentLength)
    (htype : h'.text? HeaderName.contentType = h.text? HeaderName.contentType) {body : Bytes}
    {limit : Nat} {decoded : DecodedBody} :
    Acceptable h' body limit decoded ↔ Acceptable h body limit decoded := by
  rw [← readBody_eq_ok_iff, ← readBody_eq_ok_iff, readBody, readBody, declaredSize?, declaredSize?,
    hsize, htype]

theorem bodyFor_isOk_iff {verb : Verb} {request : Request} {limit : Nat} :
    (∃ body, bodyFor verb request limit = .ok body) ↔
      (verb.hasBody → ∃ decoded, Acceptable request.headers request.body limit decoded) := by
  unfold bodyFor
  cases verb.hasBody with
  | false => simp
  | true =>
    simp only [if_true, true_imp_iff, ← readBody_eq_ok_iff]
    cases readBody request.headers request.body limit <;> simp [Except.map]

end Call

/-! ## Requests -/

namespace Gateway

/-- The gateway runs a request, with a verb and for a path. -/
structure Admits (g : Gateway σ) (request : Request) (verb : Verb) (path : RequestPath) : Prop where
  method : Verb.ofMethod? request.method = some verb
  path : ∃ rest plain, request.path = '/' :: rest ∧
    Utf8.decode? (Percent.decode rest) = some plain ∧
    RequestPath.ofMounted? g.config.gateway.mountPath g.config.gateway.serviceName ('/' :: plain) =
      some path
  body : verb.hasBody → ∃ decoded,
    Call.Acceptable request.headers request.body g.config.security.maxBodySize decoded

/-- The call of a request that is admitted. -/
def callFor (g : Gateway σ) (request : Request) (verb : Verb) (path : RequestPath)
    (body : Option DecodedBody) : Call where
  verb
  key := Call.keyOf path (CrossOrigin.asksNodebug request.toRequestHead)
  path
  body
  request := request.toRequestHead
  secure := request.toRequestHead.isSecure g.tls
  config := g.config
  auth := g.auth

/-- What a gateway does with a call. -/
def runCall (g : Gateway σ) (draft : Draft) (call : Call) : Draft × Trace × Gateway σ :=
  let o := call.run draft g.pool g.shared
  (o.draft, o.trace, { g with pool := o.pool, shared := o.shared })

theorem prepare_eq (g : Gateway σ) (verb : Verb) (plain : Text) (request : Request) :
    (∃ body path, Call.bodyFor verb request g.config.security.maxBodySize = .ok body ∧
      RequestPath.ofMounted? g.config.gateway.mountPath g.config.gateway.serviceName plain =
        some path ∧
      Call.prepare g.config g.auth g.tls verb plain request =
        .ok (g.callFor request verb path body)) ∨
    ((¬ ∃ body path, Call.bodyFor verb request g.config.security.maxBodySize = .ok body ∧
      RequestPath.ofMounted? g.config.gateway.mountPath g.config.gateway.serviceName plain =
        some path) ∧
      ∃ e, Call.prepare g.config g.auth g.tls verb plain request = .error e) := by
  unfold Call.prepare RequestPath.ofMounted?
  cases Call.bodyFor verb request g.config.security.maxBodySize with
  | error e => exact .inr ⟨by simp, e, rfl⟩
  | ok body =>
    cases RequestPath.stripMount? g.config.gateway.mountPath plain with
    | none => exact .inr ⟨by simp, _, rfl⟩
    | some rest =>
      simp only [Option.bind_some]
      cases RequestPath.parse? g.config.gateway.serviceName rest with
      | none => exact .inr ⟨by simp, _, rfl⟩
      | some path => exact .inl ⟨body, path, rfl, rfl, rfl⟩

variable {g : Gateway σ} {request : Request} {verb : Verb} {path : RequestPath}

/-- An admitted request is run as a call, with the body that was read. -/
theorem route_of_body (h : g.Admits request verb path) :
    ∃ body, Call.bodyFor verb request g.config.security.maxBodySize = .ok body ∧
      g.route request =
        g.runCall (opening request.toRequestHead) (g.callFor request verb path body) := by
  obtain ⟨rest, plain, hpath, hplain, hmounted⟩ := h.path
  obtain ⟨body, hbody⟩ := Call.bodyFor_isOk_iff.2 h.body
  rcases prepare_eq g verb ('/' :: plain) request with ⟨body', path', hbody', hm, hp⟩ | ⟨hn, -⟩
  · cases hm.symm.trans hmounted
    refine ⟨body', hbody', ?_⟩
    rw [route, hpath]
    simp only [hplain, dispatch, h.method, hp]
    rfl
  · exact absurd ⟨body, path, hbody, hmounted⟩ hn

theorem route_of_admits (h : g.Admits request verb path) :
    ∃ body, g.route request =
      g.runCall (opening request.toRequestHead) (g.callFor request verb path body) :=
  (route_of_body h).imp fun _ => And.right

/-- A request without a body is admitted if its path is one of a solution. -/
theorem admits_of_bodiless (rest : Text) (hm : Verb.ofMethod? request.method = some verb)
    (hb : verb.hasBody = false) (hr : request.path = '/' :: rest)
    (hp : ((Utf8.decode? (Percent.decode rest)).bind fun plain => RequestPath.ofMounted?
      g.config.gateway.mountPath g.config.gateway.serviceName ('/' :: plain)) = some path) :
    g.Admits request verb path := by
  obtain ⟨plain, hplain, hp⟩ := Option.bind_eq_some_iff.1 hp
  exact ⟨hm, ⟨rest, plain, hr, hplain, hp⟩, fun h => absurd h (by simp [hb])⟩

/-- A request that is not admitted leaves no trace, and the gateway as it is. -/
theorem route_of_not_admits (h : ¬ ∃ verb path, g.Admits request verb path) :
    (g.route request).2 = ([], g) := by
  unfold route
  split
  · next rest hpath =>
    split
    · next plain hplain =>
      unfold dispatch
      cases hm : Verb.ofMethod? request.method with
      | none => rfl
      | some verb =>
        rcases prepare_eq g verb ('/' :: plain) request with
          ⟨body, path, hb, hmounted, -⟩ | ⟨-, e, he⟩
        · exact absurd ⟨verb, path, hm, ⟨rest, plain, hpath, hplain, hmounted⟩,
            Call.bodyFor_isOk_iff.1 ⟨body, hb⟩⟩ h
        · simp only [he]
    · rfl
  · rfl

end Gateway

/-! ## Named requests -/

namespace Request

/-- The request with the name that the gateway gives it if it has none. -/
def identified (request : Request) (freshId : Bytes) : Request :=
  if request.headers.has RequestHead.idHeader then request
  else { request with headers := request.headers.append RequestHead.idHeader freshId }

variable (request : Request) (freshId : Bytes)

@[simp] theorem identified_method : (request.identified freshId).method = request.method := by
  unfold identified; split <;> rfl

@[simp] theorem identified_body : (request.identified freshId).body = request.body := by
  unfold identified; split <;> rfl

@[simp] theorem identified_path : (request.identified freshId).path = request.path := by
  unfold identified; split <;> rfl

@[simp] theorem identified_query? : (request.identified freshId).query? = request.query? := by
  unfold identified; split <;> rfl

variable {name : Text}

theorem identified_get? (hn : name ≠ RequestHead.idHeader) :
    (request.identified freshId).headers.get? name = request.headers.get? name := by
  unfold identified
  split
  · rfl
  · exact Headers.get?_append_of_ne hn freshId

theorem identified_getAll (hn : name ≠ RequestHead.idHeader) :
    (request.identified freshId).headers.getAll name = request.headers.getAll name := by
  unfold identified
  split
  · rfl
  · exact Headers.getAll_append_of_ne hn freshId

theorem identified_text? (hn : name ≠ RequestHead.idHeader) :
    (request.identified freshId).headers.text? name = request.headers.text? name := by
  rw [Headers.text?, identified_get? request freshId hn, ← Headers.text?]

@[simp] theorem asksNodebug_identified :
    CrossOrigin.asksNodebug (request.identified freshId).toRequestHead =
      CrossOrigin.asksNodebug request.toRequestHead := by
  unfold CrossOrigin.asksNodebug Headers.has
  rw [identified_text? request freshId (by decide), identified_get? request freshId (by decide),
    identified_method]

@[simp] theorem ofHeaders?_identified :
    Properties.ofHeaders? (request.identified freshId).headers =
      Properties.ofHeaders? request.headers := by
  unfold Properties.ofHeaders? Properties.ofCookies Properties.cookies
  rw [identified_get? request freshId (by decide), identified_getAll request freshId (by decide)]

end Request

namespace Gateway

theorem handle_eq (g : Gateway σ) (freshId : Bytes) (request : Request) :
    (g.handle freshId request).2 = (g.route (request.identified freshId)).2 := by
  unfold handle Request.identified Headers.has
  cases hid : request.headers.get? RequestHead.idHeader <;> rfl

/-- The response that is sent is the one that was routed, under the name of the request. -/
theorem response_handle (g : Gateway σ) (freshId : Bytes) (request : Request) :
    (g.handle freshId request).1 =
      trimmed request.method (named ((request.headers.get? RequestHead.idHeader).getD freshId)
        (g.route (request.identified freshId)).1) := by
  unfold handle Request.identified Headers.has
  cases hid : request.headers.get? RequestHead.idHeader <;> rfl

/-- A name changes nothing of what is admitted. -/
theorem admits_identified {g : Gateway σ} {request : Request} (freshId : Bytes) {verb : Verb}
    {path : RequestPath} :
    g.Admits (request.identified freshId) verb path ↔ g.Admits request verb path := by
  have hacc : ∀ limit decoded,
      Call.Acceptable (request.identified freshId).headers request.body limit decoded ↔
        Call.Acceptable request.headers request.body limit decoded := fun _ _ =>
    Call.acceptable_congr (request.identified_text? freshId (by decide))
      (request.identified_text? freshId (by decide))
  constructor
  · rintro ⟨hm, hp, hb⟩
    refine ⟨by simpa using hm, by simpa using hp, fun hv => ?_⟩
    obtain ⟨decoded, hd⟩ := hb hv
    exact ⟨decoded, (hacc _ _).1 (by simpa using hd)⟩
  · rintro ⟨hm, hp, hb⟩
    refine ⟨by simpa using hm, by simpa using hp, fun hv => ?_⟩
    obtain ⟨decoded, hd⟩ := hb hv
    exact ⟨decoded, by simpa using (hacc _ _).2 hd⟩

theorem handle_trace_of_not_admits {g : Gateway σ} {request : Request}
    (h : ¬ ∃ verb path, g.Admits request verb path) (freshId : Bytes) :
    (g.handle freshId request).2.1 = [] := by
  have hn : ¬ ∃ verb path, g.Admits (request.identified freshId) verb path := by
    simpa only [admits_identified] using h
  rw [handle_eq, route_of_not_admits hn]

/-- A request is run as a call, or leaves no trace, and the gateway as it is. -/
theorem handle_cases (g : Gateway σ) (freshId : Bytes) (request : Request) :
    (∃ draft call, (g.handle freshId request).2 = (g.runCall draft call).2) ∨
      (g.handle freshId request).2 = ([], g) := by
  rw [handle_eq]
  by_cases ha : ∃ verb path, g.Admits (request.identified freshId) verb path
  · obtain ⟨verb, path, ha⟩ := ha
    obtain ⟨body, hb⟩ := route_of_admits ha
    exact .inl ⟨_, _, congrArg Prod.snd hb⟩
  · exact .inr (route_of_not_admits ha)

end Gateway

end SessionGateway
