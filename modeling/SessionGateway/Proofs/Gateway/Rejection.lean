/-
  Rejection — a client that is not let in learns nothing of what lies behind.

  A gateway rejects a request for a path (`Gateway.Rejects`) if it asks for groups, its directory
  does not accept the credentials of the request, and the scope of the session that the request gets
  does not authenticate by itself.  Which credentials were sent, who the users are, and what the
  solution has on other scopes, all that differs between two rejections without a trace in the
  response.

  * `Call.run_of_rejected`: a rejected call ends in its challenge, and runs no operation;
  * `Draft.IsChallenge`: what the response to it is;
  * `Request.AlikeBut.opening_eq`: the response starts the same if only the credentials differ;
  * `rejections_alike`: two rejections have one and the same response.
-/
import SessionGateway.Proofs.Dispatch.Responses
import SessionGateway.Proofs.Gateway.Authorization

namespace SessionGateway

variable {σ τ : Type}

/-! ## Settings -/

/-- Settings that ask for groups do not let in credentials that the directory does not accept, and
    challenge the client. -/
theorem AuthSettings.decide_of_unknown {settings : AuthSettings} {credentials : Option Credentials}
    (hgroups : settings.authorizedGroups ≠ none)
    (hunknown : credentials.bind settings.directory.checkPassword? = none) (realm : Text) :
    settings.decide credentials realm = .unauthenticated realm := by
  obtain ⟨authorized, hgroups⟩ := Option.ne_none_iff_exists'.1 hgroups
  rw [decide, hgroups, hunknown]

/-! ## Calls -/

namespace Call

/-- A call that is not let in to a solution, by the settings that decide there. -/
structure Rejected (call : Call) (solution : Solution σ) : Prop where
  groups : call.auth.authorizedGroups ≠ none
  unknown : (Credentials.ofHeaders? call.request.headers).bind call.auth.directory.checkPassword? =
    none
  noHook : solution.existence call.path.scope .authenticate ≠ .found

variable {call : Call} {s : Stage σ}

theorem letIn_of_rejected (h : call.Rejected s.session.solution) :
    (Service.letIn call).runAt s =
      (.error (.refused (.unauthenticated call.path.sessionKey)), s) := by
  have hdecide : (Authentication.decide call.auth call.path.sessionKey call.path.scope
      call.request).runAt s = (.ok (.unauthenticated call.path.sessionKey), s) := by
    have hr : (Authentication.decide call.auth call.path.sessionKey call.path.scope
        call.request).runAt s = _ := Work.runAt_bind_ok (Work.runAt_existence _ _ _)
    rw [hr, if_neg h.noHook, AuthSettings.decide_of_unknown h.groups h.unknown]
    rfl
  exact (Work.runAt_bind_ok hdecide).trans (Work.runAt_orRefuse _ _)

/-- A service that is rejected breaks off behind its inbound step. -/
theorem serve_of_rejected (h : call.Rejected s.session.solution)
    (hverb : call.verb.operation?.isSome) :
    (Service.serve call).runAt s =
      (.error (.refused (.unauthenticated call.path.sessionKey)),
        s.broughtIn call.request.headers) := by
  obtain ⟨o, ho⟩ := Option.isSome_iff_exists.1 hverb
  have hserve : (Service.serve call : Work σ Unit) = Service.operate call o := by
    rw [Service.serve, ho]
  have hletIn : (Service.letIn call).runAt (s.broughtIn call.request.headers) = _ :=
    letIn_of_rejected (by rwa [Stage.broughtIn_solution])
  rw [hserve, Service.runAt_operate]
  exact Work.runAt_bind_error hletIn

/-- **A rejected call ends in its challenge**, which depends on its path alone, and runs no
    operation. -/
theorem run_of_rejected {pool : SessionPool σ} {guard : Guard σ}
    (hguard : (pool.checkOut call.key).1 = .ok guard)
    (h : call.Rejected guard.session.solution) (hverb : call.verb.operation?.isSome) (d : Draft)
    (shared : σ) :
    (call.run d pool shared).draft = d.fail (.unauthenticated call.path.sessionKey) ∧
      (call.run d pool shared).trace.Quiet := by
  have hserve : (Service.serve call).runAt (call.stage d pool shared guard) = _ :=
    serve_of_rejected h hverb
  obtain ⟨hdraft, u, hu, htrace⟩ := run_of_checkOut hguard d shared
  rw [hserve] at hdraft htrace
  constructor
  · rw [hdraft]
    exact congrArg (Draft.fail · (.unauthenticated call.path.sessionKey))
      (Service.broughtIn_draft _ _)
  · rw [htrace]
    exact (Stage.quiet_broughtIn (quiet_stage hguard) _).append hu

end Call

/-! ## Challenges -/

namespace Draft

theorem getAll_setHeader {d : Draft} {name other : Text} (hn : other ≠ name) (t : Text) :
    (d.setHeader name t).headers.getAll other = d.headers.getAll other :=
  d.headers.getAll_set_of_ne t hn

/-- A bare challenge for a realm: a status, no body, and neither properties nor cookies. -/
structure IsChallenge (d : Draft) (realm : Text) : Prop where
  status : d.status = 401
  body : d.body = []
  challenge : d.headers.getAll HeaderName.challenge = (Header.ofText? (challenge realm)).toList
  properties : d.headers.getAll Properties.headerName = []
  cookies : d.cookies = []

/-- The headers that a response has before anything else is done. -/
def openingNames : List Text :=
  [HeaderName.allowOrigin, HeaderName.maxAge, HeaderName.allowCredentials, HeaderName.allowMethods,
    HeaderName.exposeHeaders, HeaderName.allowHeaders]

theorem getAll_opening (request : RequestHead) {name : Text} (hn : name ∉ openingNames) :
    (Gateway.opening request).headers.getAll name = [] := by
  simp only [openingNames, List.mem_cons, List.not_mem_nil, or_false, not_or] at hn
  obtain ⟨horigin, hage, hcredentials, hmethods, hexpose, hheaders⟩ := hn
  unfold Gateway.opening CrossOrigin.apply
  dsimp only
  -- the two headers that not every response has
  split <;> split <;>
    simp only [getAll_setHeader, hheaders, hexpose, hmethods, hcredentials, hage, horigin, ne_eq,
      not_false_eq_true] <;> rfl

/-- **The challenge to a request is bare.** -/
theorem isChallenge_opening (request : RequestHead) (realm : Text) :
    ((Gateway.opening request).fail (.unauthenticated realm)).IsChallenge realm := by
  have hbare : ∀ name, name ∉ openingNames → name ≠ HeaderName.contentType →
      ((Gateway.opening request).statusOnly 401).headers.getAll name = [] := by
    intro name hn ht
    rw [statusOnly, Headers.getAll_erase_of_ne _ ht, getAll_opening request hn]
  have hothers : ∀ name, name ∉ openingNames → name ≠ HeaderName.contentType →
      name ≠ HeaderName.challenge →
      ((Gateway.opening request).fail (.unauthenticated realm)).headers.getAll name = [] :=
    fun name hn ht hc => (getAll_setHeader hc _).trans (hbare name hn ht)
  exact {
    status := rfl
    body := rfl
    challenge := Headers.getAll_set_of_absent _ _ (hbare _ (by decide) (by decide))
    properties := hothers _ (by decide) (by decide) (by decide)
    cookies := hothers _ (by decide) (by decide) (by decide) }

end Draft

/-! ## Requests that differ in one header -/

namespace Request

/-- Two requests that are alike, but for the values of one header. -/
structure AlikeBut (name : Text) (request request' : Request) : Prop where
  method : request'.method = request.method
  target : request'.target = request.target
  body : request'.body = request.body
  others : ∀ other, other ≠ name → request'.headers.getAll other = request.headers.getAll other

namespace AlikeBut
variable {name other : Text} {request request' : Request}

theorem get? (h : AlikeBut name request request') (hn : other ≠ name) :
    request'.headers.get? other = request.headers.get? other := by
  rw [Headers.get?_eq_head?, Headers.get?_eq_head?, h.others other hn]

theorem text? (h : AlikeBut name request request') (hn : other ≠ name) :
    request'.headers.text? other = request.headers.text? other := by
  rw [Headers.text?, Headers.text?, h.get? hn]

theorem asksNodebug_eq (h : AlikeBut HeaderName.authorization request request') :
    CrossOrigin.asksNodebug request'.toRequestHead =
      CrossOrigin.asksNodebug request.toRequestHead := by
  unfold CrossOrigin.asksNodebug Headers.has
  rw [h.method, h.text? (by decide), h.get? (by decide)]

/-- **A response starts the same**, whatever the credentials are. -/
theorem opening_eq (h : AlikeBut HeaderName.authorization request request') :
    Gateway.opening request'.toRequestHead = Gateway.opening request.toRequestHead := by
  unfold Gateway.opening CrossOrigin.apply Headers.has
  rw [h.asksNodebug_eq]
  have horigin : request'.headers.text? HeaderName.origin = _ := h.text? (by decide)
  have hheaders : request'.headers.text? HeaderName.requestHeaders = _ := h.text? (by decide)
  have hmethod : request'.headers.get? HeaderName.requestMethod = _ := h.get? (by decide)
  simp only [horigin, hheaders, hmethod]

end AlikeBut

end Request

/-! ## Rejections -/

namespace Gateway

/-- Two gateways that lay out paths alike, and bound bodies alike; their users may differ. -/
structure SameLayout (g : Gateway σ) (g' : Gateway τ) : Prop where
  gateway : g'.config.gateway = g.config.gateway
  security : g'.config.security = g.config.security

/-- A request that a gateway has a session for and does not let in, by its own settings. -/
structure Rejects (g : Gateway σ) (request : Request) (path : RequestPath) : Prop where
  groups : g.auth.authorizedGroups ≠ none
  unknown : (Credentials.ofHeaders? request.headers).bind g.auth.directory.checkPassword? = none
  session : ∃ guard,
    (g.pool.checkOut (Call.keyOf path (CrossOrigin.asksNodebug request.toRequestHead))).1 =
      .ok guard ∧
    guard.session.solution.existence path.scope .authenticate ≠ .found

variable {g : Gateway σ} {g' : Gateway τ} {request request' : Request} {verb : Verb}
  {path : RequestPath}

/-- What is admitted does not depend on the credentials. -/
theorem Admits.of_alike (h : g.Admits request verb path) (hlayout : g.SameLayout g')
    (halike : request.AlikeBut HeaderName.authorization request') :
    g'.Admits request' verb path where
  method := by rw [halike.method, h.method]
  path := by
    have hpath : request'.path = request.path := by
      unfold RequestHead.path RequestHead.bare
      rw [halike.target]
    rw [hpath, hlayout.gateway]
    exact h.path
  body hv := by
    obtain ⟨decoded, hd⟩ := h.body hv
    rw [halike.body, hlayout.security]
    exact ⟨decoded, (Call.acceptable_congr (halike.text? (by decide))
      (halike.text? (by decide))).2 hd⟩

/-- The draft of a rejected request is the challenge for its path. -/
theorem route_of_rejects (h : g.Admits request verb path) (hverb : verb ≠ .options)
    (hr : g.Rejects request path) :
    (g.route request).1 =
        (opening request.toRequestHead).fail (.unauthenticated path.sessionKey) ∧
      (g.route request).2.1.Quiet := by
  obtain ⟨body, hroute⟩ := route_of_admits h
  obtain ⟨guard, hguard, hhook⟩ := hr.session
  have hoperation : verb.operation?.isSome := by
    cases verb <;> first | rfl | exact absurd rfl hverb
  rw [hroute]
  exact Call.run_of_rejected hguard
    ⟨hr.groups, hr.unknown, hhook⟩ hoperation _ g.shared

/-- **Two rejections have one response**: a challenge with nothing else, for any two credentials
    that are not accepted, any users, any properties that the sessions hold, and any two solutions
    without an operation for authentication on the scope, loaded or not.  No operation is run. -/
theorem rejections_alike (h : g.Admits request verb path) (hverb : verb ≠ .options)
    (hlayout : g.SameLayout g') (halike : request.AlikeBut HeaderName.authorization request')
    (hr : g.Rejects request path) (hr' : g'.Rejects request' path) :
    (g'.route request').1 = (g.route request).1 ∧
      (g.route request).1.IsChallenge path.sessionKey ∧
      (g.route request).2.1.Quiet ∧ (g'.route request').2.1.Quiet := by
  obtain ⟨hdraft, hquiet⟩ := route_of_rejects h hverb hr
  obtain ⟨hdraft', hquiet'⟩ := route_of_rejects (h.of_alike hlayout halike) hverb hr'
  refine ⟨?_, ?_, hquiet, hquiet'⟩
  · rw [hdraft', hdraft, halike.opening_eq]
  · rw [hdraft]
    exact Draft.isChallenge_opening request.toRequestHead path.sessionKey

/-- A wrong password for a user of a solution that is loaded, and no credentials at all for one that
    is not. -/
theorem rejections_alike_wrong_and_absent :
    let config : Config := { auth := { authorizedGroups := some ["staff".toList] } }
    let vault : List (Operation × Behaviour Unit) :=
      [(.read, fun _ _ desk => (.returned (.ofText "secret".toList), desk))]
    let hook : Operation × Behaviour Unit :=
      (.authenticate, fun _ _ desk => (.returned .null, desk))
    let loaded : Solution Unit :=
      ⟨"crm".toList, true, [("admin".toList, [hook]), ("orders".toList, vault)]⟩
    let unloaded : Solution Unit := ⟨"crm".toList, false, []⟩
    let anna : Config.User := ⟨"anna".toList, "other".toList, ["staff".toList]⟩
    let g : Gateway Unit := .new config ⟨⟨[loaded]⟩, []⟩ (some ⟨[anna]⟩) ()
    let g' : Gateway Unit := .new config ⟨⟨[unloaded]⟩, []⟩ none ()
    let wrong := Headers.ofList
      [(HeaderName.authorization, Utf8.encode "Basic YW5uYTpzZWNyZXQ=".toList)]
    let request : Request := ⟨⟨"GET".toList, "/rest_ws/crm/orders".toList, wrong⟩, []⟩
    let request' : Request := ⟨⟨"GET".toList, "/rest_ws/crm/orders".toList, .empty⟩, []⟩
    (g'.route request').1 = (g.route request).1 ∧
      (g.route request).1.IsChallenge "crm".toList ∧
      (g.route request).2.1.Quiet ∧ (g'.route request').2.1.Quiet := by
  intro config vault hook loaded unloaded anna g g' wrong request request'
  have hadmits : g.Admits request .get ⟨"crm".toList, "orders".toList, []⟩ :=
    admits_of_bodiless "rest_ws/crm/orders".toList (by decide) rfl (by decide) (by decide +kernel)
  refine rejections_alike hadmits (by decide) ⟨rfl, rfl⟩ ⟨rfl, rfl, rfl, fun other hn => ?_⟩
    ⟨by decide, by decide +kernel, ⟨_, .new loaded, false⟩, rfl, by decide +kernel⟩
    ⟨by decide, rfl, ⟨_, .new unloaded, false⟩, rfl, by decide +kernel⟩
  have hlower : Text.lower HeaderName.authorization = HeaderName.authorization := by decide
  simp [request, request', wrong, Headers.getAll, Headers.ofList, Headers.empty, hlower, Ne.symm hn]

end Gateway

end SessionGateway
