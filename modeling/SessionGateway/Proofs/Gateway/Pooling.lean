/-
  Pooling — a client cannot tell a session of the pool from one that was built for its request.

  Two gateways over one registry are twins (`Gateway.Twins`) if they differ at most in whether
  sessions are dropped after each request, and in the sessions and slots that came of it.  A pool
  from which no session is out gives under a key what `SessionPool.offer` says, whatever it holds;
  a session that it gives differs from a new one in its properties only, and these are replaced.

  * `checkOut_offer`: what a pool gives while no session is out;
  * `Twins.handle`: twins give the same response to a request, and stay twins;
  * `responses_reload`: so they give the same responses to any requests.
-/
import SessionGateway.Proofs.Dispatch.Oblivious
import SessionGateway.Proofs.Gateway.Reachability

namespace SessionGateway

variable {σ : Type} {registry : Registry σ}

/-! ## Dropping sessions after each request -/

/-- The configuration in which sessions are dropped after each request, or are not. -/
def Config.withReload (c : Config) (reload : Bool) : Config :=
  { c with gateway := { c.gateway with reloadAfterRequest := reload } }

namespace Call

/-- The call under the configuration in which sessions are dropped, or are not. -/
def withReload (call : Call) (reload : Bool) : Call :=
  { call with config := call.config.withReload reload }

theorem serve_withReload (call : Call) (reload : Bool) :
    (Service.serve (call.withReload reload) : Work σ Unit) = Service.serve call := rfl

/-- Whether its session is dropped changes nothing of the response to a call. -/
theorem runWith_withReload (call : Call) (reload : Bool) (draft : Draft) (guard : Guard σ)
    (trace : Trace) (pool : SessionPool σ) (shared : σ) :
    ((call.withReload reload).runWith draft guard trace pool shared).draft =
        (call.runWith draft guard trace pool shared).draft ∧
      ((call.withReload reload).runWith draft guard trace pool shared).shared =
        (call.runWith draft guard trace pool shared).shared := by
  rw [runWith_eq, runWith_eq, serve_withReload]
  rcases (Service.serve call).runAt (.start guard.session draft trace shared) with
    ⟨(e | m) | _, s⟩
  all_goals exact ⟨rfl, rfl⟩

theorem prepare_withReload (config : Config) (reload : Bool) (auth : AuthSettings) (tls : Bool)
    (verb : Verb) (path : Text) (request : Request) :
    prepare (config.withReload reload) auth tls verb path request =
      (prepare config auth tls verb path request).map (·.withReload reload) := by
  have hlimit : (config.withReload reload).security = config.security := rfl
  have hmount : (config.withReload reload).gateway.mountPath = config.gateway.mountPath := rfl
  have hservice : (config.withReload reload).gateway.serviceName = config.gateway.serviceName := rfl
  unfold prepare
  rw [hlimit, hmount, hservice]
  cases bodyFor verb request config.security.maxBodySize with
  | error e => rfl
  | ok body =>
    cases RequestPath.stripMount? config.gateway.mountPath path with
    | none => rfl
    | some rest =>
      simp only [bind, Except.bind]
      cases RequestPath.parse? config.gateway.serviceName rest <;> rfl

end Call

/-! ## Pools from which no session is out -/

namespace SessionPool

/-- What a pool gives under a key while no session is out: a session of the solution that the key
    asks for, if there is one and if any session may be out at all. -/
def offer (registry : Registry σ) (limit : Nat) (key : Text) : Except PoolError (Solution σ) :=
  if limit = 0 then .error .exhausted
  else
    match registry.get? key with
    | some solution => .ok solution
    | none => .error (.unknownSolution key)

/-- A pool without planned failures, from which no session is out. -/
structure AtRest (registry : Registry σ) (limit : Nat) (p : SessionPool σ) : Prop where
  limit : p.limit = limit
  workshop : p.workshop = ⟨registry, []⟩
  faithful : p.Faithful registry
  refines : p.Refines []

theorem AtRest.new (registry : Registry σ) (limit : Nat) :
    (SessionPool.new limit ⟨registry, []⟩).AtRest registry limit :=
  ⟨rfl, rfl, .new _ _, .new _ _⟩

theorem build_workshop (registry : Registry σ) (key : Text) :
    Workshop.build ⟨registry, []⟩ key =
      (match registry.get? key with
        | some solution => .ok (.new solution)
        | none => .error (.unknownSolution key), ⟨registry, []⟩) := by
  unfold Workshop.build
  rw [Workshop.fail?]
  cases registry.get? key <;> rfl

theorem workshop_checkOut {p : SessionPool σ} (hw : p.workshop = ⟨registry, []⟩) (key : Text) :
    (p.checkOut key).2.2.workshop = ⟨registry, []⟩ := by
  have hb := build_workshop registry key
  rcases p.checkOut_cases key with ⟨_, _, -, hc⟩ | ⟨_, -, hc⟩ | ⟨_, _, _, -, hbuild, hc⟩ |
    ⟨_, _, _, -, hbuild, hc⟩ <;> rw [hc]
  · exact hw
  · exact hw
  · rw [hw, hb] at hbuild
    exact (Prod.mk.inj hbuild).2.symm
  · rw [hw, hb] at hbuild
    exact (Prod.mk.inj hbuild).2.symm

/-- **What a pool gives does not depend on what it holds**, while no session is out. -/
theorem checkOut_offer {limit : Nat} {p : SessionPool σ} (h : p.AtRest registry limit)
    (key : Text) :
    match offer registry limit key with
    | .ok solution => ∃ properties trace p',
        p.checkOut key = (.ok ⟨key, ⟨solution, properties⟩, false⟩, trace, p')
    | .error e => ∃ trace p', p.checkOut key = (.error e, trace, p') := by
  obtain ⟨hout, hbound⟩ := h.refines.counted key
  rw [List.countP_nil] at hout
  rw [h.limit] at hbound
  rcases p.checkOut_cases key with ⟨session, slots, ht, hc⟩ | ⟨slots, ht, hc⟩ |
    ⟨session, slots, workshop, ht, hb, hc⟩ | ⟨e, slots, workshop, ht, hb, hc⟩ <;>
    rw [h.limit] at ht <;> rw [hc]
  · -- an idle session shows that the limit is not zero
    obtain ⟨idle, hi, -⟩ := Slots.of_take ht
    rw [hi, List.length_cons] at hbound
    have hguard : Guard.Faithful registry ⟨key, session, false⟩ :=
      ((h.faithful.checkOut key).2 _ (by rw [hc])).2
    rw [offer, if_neg (by omega), show registry.get? key = some session.solution from hguard]
    exact ⟨session.properties, _, _, rfl⟩
  · obtain ⟨-, hl, -⟩ := Slots.of_take ht
    rw [offer, if_pos (by omega)]
    exact ⟨_, _, rfl⟩
  · obtain ⟨-, hl, -⟩ := Slots.of_take ht
    rw [h.workshop, build_workshop] at hb
    rw [offer, if_neg (by omega)]
    cases hs : registry.get? key with
    | none =>
      rw [hs] at hb
      cases hb
    | some solution =>
      rw [hs] at hb
      cases hb
      exact ⟨_, _, _, rfl⟩
  · obtain ⟨-, hl, -⟩ := Slots.of_take ht
    rw [h.workshop, build_workshop] at hb
    rw [offer, if_neg (by omega)]
    cases hs : registry.get? key with
    | none =>
      rw [hs] at hb
      cases hb
      exact ⟨_, _, rfl⟩
    | some solution =>
      rw [hs] at hb
      cases hb

end SessionPool

/-- **The response to a call does not depend on what the pool holds**, nor on whether its session
    is dropped, if the properties of the request can be read. -/
theorem Call.run_response {limit : Nat} (call : Call)
    (hr : Properties.Readable call.request.headers) (reload : Bool) (draft : Draft)
    {p p' : SessionPool σ} (h : p.AtRest registry limit) (h' : p'.AtRest registry limit)
    (shared : σ) :
    ((call.withReload reload).run draft p' shared).draft = (call.run draft p shared).draft ∧
      ((call.withReload reload).run draft p' shared).shared = (call.run draft p shared).shared := by
  have hc := SessionPool.checkOut_offer h call.key
  have hc' := SessionPool.checkOut_offer h' call.key
  have hkey : (call.withReload reload).key = call.key := rfl
  cases ho : SessionPool.offer registry limit call.key with
  | error e =>
    rw [ho] at hc hc'
    obtain ⟨t, q, hc⟩ := hc
    obtain ⟨t', q', hc'⟩ := hc'
    simp only [run, hkey, hc, hc', and_self]
  | ok solution =>
    rw [ho] at hc hc'
    obtain ⟨properties, t, q, hc⟩ := hc
    obtain ⟨properties', t', q', hc'⟩ := hc'
    simp only [run, hkey, hc, hc']
    obtain ⟨hd, hs⟩ := call.runWith_withReload reload draft
      ⟨call.key, ⟨solution, properties'⟩, false⟩ t' q' shared
    obtain ⟨hd', hs'⟩ := Call.runWith_response hr draft call.key solution properties' properties
      t' t q' q shared
    exact ⟨hd.trans hd', hs.trans hs'⟩

/-! ## Twins -/

namespace Gateway

/-- Two gateways over one registry that may differ in whether sessions are dropped after each
    request, and in their pools, from which no session is out. -/
structure Twins (registry : Registry σ) (g g' : Gateway σ) : Prop where
  config : ∃ reload, g'.config = g.config.withReload reload
  auth : g'.auth = g.auth
  tls : g'.tls = g.tls
  shared : g'.shared = g.shared
  pools : ∃ limit, g.pool.AtRest registry limit ∧ g'.pool.AtRest registry limit

/-- A request changes nothing of a gateway but its pool and the shared state. -/
theorem settings_handle (g : Gateway σ) (freshId : Bytes) (request : Request) :
    ∃ pool shared, (g.handle freshId request).2.2 = { g with pool, shared } := by
  rcases g.handle_cases freshId request with ⟨draft, call, he⟩ | he <;> rw [he]
  · exact ⟨_, _, rfl⟩
  · exact ⟨g.pool, g.shared, rfl⟩

/-- A request leaves a pool at rest, from which no session was out. -/
theorem atRest_handle {g : Gateway σ} {limit : Nat} (h : g.pool.AtRest registry limit)
    (freshId : Bytes) (request : Request) :
    (g.handle freshId request).2.2.pool.AtRest registry limit := by
  refine pool_handle (·.AtRest registry limit) h (fun draft call => ?_) freshId request
  have hlimit := (g.pool.limit_checkOut call.key).trans h.limit
  have hworkshop := SessionPool.workshop_checkOut h.workshop call.key
  obtain ⟨hfaithful, hguard⟩ := h.faithful.checkOut call.key
  have hrefines := h.refines.checkOut call.key
  rcases g.pool_runCall draft call with
    ⟨guard, session, reload, hc, hs, hreload, he⟩ | ⟨e, hc, he⟩ <;> rw [hc] at hrefines <;> rw [he]
  · exact {
      limit := hlimit
      workshop := hworkshop
      faithful := hfaithful.checkIn ((hguard guard hc).2.trans (congrArg some hs.symm))
      refines := .checkIn (show SessionPool.Refines _ ([] ++ guard :: []) from hrefines) session
        hreload }
  · exact ⟨hlimit, hworkshop, hfaithful, hrefines⟩

namespace Twins
variable {g g' : Gateway σ}

theorem dispatch (h : Twins registry g g') (path : Text) {request : Request}
    (hr : Properties.Readable request.headers) :
    (g'.dispatch path request).1 = (g.dispatch path request).1 ∧
      (g'.dispatch path request).2.2.shared = (g.dispatch path request).2.2.shared := by
  obtain ⟨reload, hconfig⟩ := h.config
  obtain ⟨limit, hp, hp'⟩ := h.pools
  unfold Gateway.dispatch
  cases Verb.ofMethod? request.method with
  | none => exact ⟨rfl, h.shared⟩
  | some verb =>
    simp only [hconfig, h.auth, h.tls, Call.prepare_withReload]
    rcases prepare_eq g verb path request with ⟨body, named, -, -, hprep⟩ | ⟨-, e, hprep⟩ <;>
      rw [hprep]
    · simp only [Except.map, h.shared]
      exact (g.callFor request verb named body).run_response hr reload _ hp hp' g.shared
    · exact ⟨rfl, h.shared⟩

theorem route (h : Twins registry g g') {request : Request}
    (hr : Properties.Readable request.headers) :
    (g'.route request).1 = (g.route request).1 ∧
      (g'.route request).2.2.shared = (g.route request).2.2.shared := by
  unfold Gateway.route
  split
  · split
    · exact h.dispatch _ hr
    · exact ⟨rfl, h.shared⟩
  · exact ⟨rfl, h.shared⟩

/-- **Twins give the same response to a request**, and stay twins. -/
theorem handle (h : Twins registry g g') (freshId : Bytes) {request : Request}
    (hr : Properties.Readable request.headers) :
    (g'.handle freshId request).1 = (g.handle freshId request).1 ∧
      Twins registry (g.handle freshId request).2.2 (g'.handle freshId request).2.2 := by
  have hid : Properties.Readable (request.identified freshId).headers := by
    rw [← Properties.ofHeaders?_isSome_iff, Request.ofHeaders?_identified]
    exact Properties.ofHeaders?_isSome_iff.2 hr
  obtain ⟨hd, hs⟩ := h.route hid
  obtain ⟨limit, hp, hp'⟩ := h.pools
  constructor
  · rw [response_handle, response_handle, hd]
  · have hpool := atRest_handle hp freshId request
    have hpool' := atRest_handle hp' freshId request
    have hshared : (g'.handle freshId request).2.2.shared = (g.handle freshId request).2.2.shared := by
      rw [handle_eq, handle_eq]
      exact hs
    obtain ⟨pool, shared, he⟩ := g.settings_handle freshId request
    obtain ⟨pool', shared', he'⟩ := g'.settings_handle freshId request
    rw [he] at hpool hshared ⊢
    rw [he'] at hpool' hshared ⊢
    exact ⟨h.config, h.auth, h.tls, hshared, limit, hpool, hpool'⟩

end Twins

/-- The responses to requests that are handled one after another, each with the name that it gets
    if it has none. -/
def responses (g : Gateway σ) : List (Bytes × Request) → List Draft
  | [] => []
  | (freshId, request) :: requests =>
    (g.handle freshId request).1 :: (g.handle freshId request).2.2.responses requests

theorem Twins.responses {g g' : Gateway σ} (h : Twins registry g g')
    {requests : List (Bytes × Request)}
    (hr : ∀ r ∈ requests, Properties.Readable r.2.headers) :
    g'.responses requests = g.responses requests := by
  induction requests generalizing g g' with
  | nil => rfl
  | cons r requests ih =>
    obtain ⟨freshId, request⟩ := r
    rw [List.forall_mem_cons] at hr
    obtain ⟨hd, hnext⟩ := h.handle freshId hr.1
    rw [Gateway.responses, Gateway.responses, hd, ih hnext hr.2]

/-- **Pooling is unobservable**: the responses are the same whether sessions are kept for later
    requests or every request gets a session of its own. -/
theorem responses_reload (registry : Registry σ) (config : Config) (directory : Option Directory)
    (shared : σ) {requests : List (Bytes × Request)}
    (h : ∀ r ∈ requests, Properties.Readable r.2.headers) :
    (Gateway.new (config.withReload false) ⟨registry, []⟩ directory shared).responses requests =
      (Gateway.new (config.withReload true) ⟨registry, []⟩ directory shared).responses requests := by
  have htwins : Twins registry
      (Gateway.new (config.withReload false) ⟨registry, []⟩ directory shared)
      (Gateway.new (config.withReload true) ⟨registry, []⟩ directory shared) :=
    { config := ⟨true, rfl⟩
      auth := rfl
      tls := rfl
      shared := rfl
      pools := ⟨config.pool.maxSessionsPerKey, .new registry _, .new registry _⟩ }
  exact (htwins.responses h).symm

/-- Two requests to an operation that leaves a property behind; the session of the first is kept in
    one of the gateways, and dropped in the other. -/
theorem responses_reload_visits :
    let visit : Behaviour Nat := fun _ _ desk =>
      (.returned (.value (.array
          [.ofNat desk.shared, .bool (desk.properties.get? "visited".toList).isSome])),
        { desk with properties := .ofList [("visited".toList, "1".toList)],
                    shared := desk.shared + 1 })
    let registry : Registry Nat :=
      ⟨[⟨"crm".toList, true, [("orders".toList, [(.read, visit)])]⟩]⟩
    let request : Request := ⟨⟨"GET".toList, "/rest_ws/crm/orders".toList, .empty⟩, []⟩
    let requests : List (Bytes × Request) := [([1], request), ([2], request)]
    let start := fun reload =>
      Gateway.new (Config.withReload {} reload) ⟨registry, []⟩ none 0
    let kept := fun reload =>
      (((start reload).handle [1] request).2.2.pool.slots.get "crm".toList).idle.length
    (kept false = 1 ∧ kept true = 0) ∧
      (∀ r ∈ requests, Properties.Readable r.2.headers) ∧
      (start false).responses requests = (start true).responses requests := by
  intro visit registry request requests start kept
  have hr : ∀ r ∈ requests, Properties.Readable r.2.headers := by
    intro r hr value hv
    simp only [requests, List.mem_cons, List.not_mem_nil, or_false] at hr
    obtain rfl | rfl := hr <;> cases hv
  exact ⟨by decide +kernel, hr, responses_reload registry {} none 0 hr⟩

end Gateway

end SessionGateway
