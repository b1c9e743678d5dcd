/-
  Visits — one request of a client, and the cookies that it is answered with.

  The trace of a request shows which properties it brought in (`Trace.properties?`); those that
  its operations left are what a replay of the trace ends with.  A visit is an admitted request to a
  gateway that can come to be, with the solution that it is for (`Visit`).

  * `run_cookies`: the cookies of a call that succeeds;
  * `handle_cookies`: what a gateway puts around the response of a call has no cookies;
  * `Visit.brought`: what a visit that succeeds brings in and leaves behind.
-/
import SessionGateway.Proofs.Dispatch.Responses
import SessionGateway.Proofs.Gateway.Reachability
import SessionGateway.Proofs.Session.Jar

namespace SessionGateway

variable {σ : Type}

/-! ## Calls -/

namespace Trace

/-- The properties that were set first. -/
def properties? : Trace → Option Properties
  | [] => none
  | .setProperties p :: _ => some p
  | _ :: t => properties? t

theorem properties?_append_of_taking {key : Text} {t : Trace} (ht : ∀ e ∈ t, e.IsTaking key)
    (u : Trace) : properties? (t ++ u) = properties? u := by
  induction t with
  | nil => rfl
  | cons e t ih =>
    rw [List.forall_mem_cons] at ht
    cases ht.1 <;> exact ih ht.2

/-- The work on a request with readable properties begins with setting them. -/
theorem exists_eq_setProperties {h : Headers} {L : Language Event} {p : Properties}
    (hp : Properties.ofHeaders? h = some p) {work : Trace} (hw : work ∈ inbound h * L) :
    ∃ rest, work = .setProperties p :: rest := by
  obtain ⟨a, ⟨q, hq, rfl⟩ | ⟨hn, -⟩, rest, -, rfl⟩ := Language.mem_mul.1 hw
  · cases hp.symm.trans hq
    exact ⟨rest, rfl⟩
  · rw [← Properties.ofHeaders?_eq_none_iff, hp] at hn
    cases hn

end Trace

/-- The end of a call that did not break off keeps the cookies of its response. -/
theorem Call.cookies_conclude (call : Call) (before : Draft) {ending : Except Halt Unit}
    (h : ∀ m, ending ≠ .error (.crashed m)) (stage : Stage σ) :
    (call.conclude before ending stage).1.cookies = stage.draft.cookies := by
  rcases ending with (e | m) | _
  · exact stage.draft.cookies_fail e
  · exact absurd rfl (h m)
  · rfl

/-- **The cookies of a call that succeeds** are those that an operation for response headers named,
    and those of the properties that its operations left. -/
theorem Call.run_cookies {registry : Registry σ} (call : Call) (draft : Draft)
    {pool : SessionPool σ} (h : pool.Faithful registry) (shared : σ) {key : Text}
    (hm : Event.acquire key none ∈ (call.run draft pool shared).trace) {solution : Solution σ}
    (hs : registry.get? call.key = some solution)
    (hpath : Service.PathWritable call.config solution.name) {p : Properties}
    (hp : Properties.ofHeaders? call.request.headers = some p) :
    let outcome := call.run draft pool shared
    let replayed := outcome.trace.replay solution call.request ⟨.empty, .none, shared⟩
    outcome.trace.properties? = some p ∧
      (Returns call.verb.operation? replayed.1 →
        outcome.draft.cookies = draft.cookies ++ replayed.1.flatMap Invocation.cookies ++
          Service.outbound call.config solution.name call.secure replayed.2.properties) := by
  intro outcome replayed
  obtain ⟨session, t, ht, work, hword, -, hsolution, hwork, htrace, hdraft⟩ :=
    call.run_outcome draft h shared hm
  cases hs.symm.trans hsolution
  obtain ⟨rest, hrest⟩ := Trace.exists_eq_setProperties hp hword
  have htrace : outcome.trace = _ := htrace
  -- the properties that were there before are never seen
  have hreplayed : replayed = Trace.replay session.solution call.request
      (Stage.start session draft t shared).desk work := by
    show Trace.replay _ _ _ outcome.trace = _
    rw [htrace, Trace.replay_bracket ht (call.conclude_mem draft _ _), hrest]
    rfl
  obtain ⟨u, hu, hdesk, -⟩ :=
    (Service.serve_accounts call).replay (.start session draft t shared)
  obtain rfl : u = work := List.append_cancel_left (hu.symm.trans hwork)
  constructor
  · rw [htrace, hrest, List.append_assoc, List.append_assoc,
      Trace.properties?_append_of_taking (Trace.isTaking_of_mem ht)]
    rfl
  · intro hreturns
    rw [hreplayed] at hreturns ⊢
    obtain ⟨hcrash, hcookies⟩ := Service.serve_cookies call (s := .start session draft t shared)
      hpath hwork hreturns
    rw [show outcome.draft = _ from hdraft, call.cookies_conclude draft hcrash]
    have hleft : ((Service.serve call).runAt (.start session draft t shared)).2.session.properties =
        _ := (congrArg Desk.properties hdesk).symm
    rw [hleft] at hcookies
    exact hcookies

/-! ## Requests -/

namespace Gateway

theorem cookies_opening (head : RequestHead) : (opening head).cookies = [] := by
  unfold opening CrossOrigin.apply
  have hnew : Draft.new.cookies = [] := rfl
  split <;> split <;> simp (disch := decide) only [Draft.cookies_setHeader, hnew]

theorem cookies_named (id : Bytes) (d : Draft) : (named id d).cookies = d.cookies := by
  unfold named
  split
  · rfl
  · exact Headers.getAll_append_of_ne (by decide) id

theorem cookies_trimmed (method : Text) (d : Draft) : (trimmed method d).cookies = d.cookies := by
  unfold trimmed
  split <;> rfl

/-- The answer to an admitted request has the trace of its call, and the cookies of its call. -/
theorem handle_cookies {g : Gateway σ} {request : Request} {verb : Verb} {path : RequestPath}
    (h : g.Admits request verb path) (freshId : Bytes) :
    ∃ body,
      let outcome := (g.callFor (request.identified freshId) verb path body).run
        (opening (request.identified freshId).toRequestHead) g.pool g.shared
      (g.handle freshId request).2.1 = outcome.trace ∧
        (g.handle freshId request).1.cookies = outcome.draft.cookies := by
  obtain ⟨body, hb⟩ := route_of_admits ((admits_identified freshId).2 h)
  refine ⟨body, ?_, ?_⟩
  · rw [handle_eq, hb, runCall_trace]
  · rw [response_handle, cookies_trimmed, cookies_named, hb]
    rfl

end Gateway

/-! ## Visits -/

/-- An admitted request to a gateway that can come to be, and the solution that it is for. -/
structure Visit (registry : Registry σ) where
  gateway : Gateway σ
  held : List (Guard σ)
  reachable : Gateway.Reachable registry gateway held
  freshId : Bytes
  request : Request
  verb : Verb
  path : RequestPath
  admits : gateway.Admits request verb path
  solution : Solution σ
  known : registry.get? (Call.keyOf path (CrossOrigin.asksNodebug request.toRequestHead)) =
    some solution

namespace Visit
variable {registry : Registry σ} (v : Visit registry)

/-- What the gateway asked of its pool and of the session. -/
def trace : Trace := (v.gateway.handle v.freshId v.request).2.1

/-- The cookies of the response. -/
def cookies : List Bytes := (v.gateway.handle v.freshId v.request).1.cookies

/-- The operations of the request, run again. -/
def replayed : List Invocation × Desk σ :=
  v.trace.replay v.solution (v.request.identified v.freshId).toRequestHead
    ⟨.empty, .none, v.gateway.shared⟩

/-- The properties that the request brought in. -/
def inbound? : Option Properties := v.trace.properties?

/-- The properties that its operations left. -/
def outbound : Properties := v.replayed.2.properties

/-- The request gets a session, and its target operation, if it has one, returns a result. -/
structure Succeeds : Prop where
  taken : ∃ key, Event.acquire key none ∈ v.trace
  returns : Returns v.verb.operation? v.replayed.1

/-- Nothing keeps the properties of a visit from its client, and nothing else looks like them: their
    names are tokens, the path of their cookies can be written, and no operation for response
    headers sets a cookie of that kind. -/
structure Regular : Prop where
  names : ∀ e ∈ v.outbound.entries, Properties.CookieName e.1
  path : Service.PathWritable v.gateway.config v.solution.name
  others : ∀ i ∈ v.replayed.1, ∀ c ∈ i.cookies, ¬ Jar.Lookalike c

instance : Decidable v.Succeeds :=
  decidable_of_iff (_ ∧ _) ⟨fun h => ⟨h.1, h.2⟩, fun h => ⟨h.taken, h.returns⟩⟩

instance : Decidable v.Regular :=
  decidable_of_iff (_ ∧ _ ∧ _)
    ⟨fun h => ⟨h.1, h.2.1, h.2.2⟩, fun h => ⟨h.names, h.path, h.others⟩⟩

variable {v}

/-- **A visit brings in what its cookies hold**, and leaves behind the cookies of what its
    operations left. -/
theorem brought (hs : v.Succeeds) (hr : v.Regular) {p : Properties}
    (hp : Properties.ofHeaders? v.request.headers = some p) :
    v.inbound? = some p ∧ ∃ path secure, v.cookies =
      v.replayed.1.flatMap Invocation.cookies ++ v.outbound.setCookies path secure := by
  obtain ⟨body, htrace, hcookies⟩ := Gateway.handle_cookies v.admits v.freshId
  obtain ⟨key, hm⟩ := hs.taken
  have hreturns := hs.returns
  unfold inbound? cookies outbound
  unfold replayed at hreturns ⊢
  unfold trace at hm hreturns ⊢
  rw [htrace] at hm hreturns ⊢
  have hknown := v.known
  rw [← Request.asksNodebug_identified v.request v.freshId] at hknown
  obtain ⟨hin, hout⟩ := Call.run_cookies _ _ v.reachable.faithful.1 v.gateway.shared hm hknown
    hr.path ((Request.ofHeaders?_identified v.request v.freshId).trans hp)
  refine ⟨hin, Service.cookiePath v.gateway.config v.solution.name,
    (v.request.identified v.freshId).toRequestHead.isSecure v.gateway.tls, ?_⟩
  rw [hcookies, hout hreturns, Gateway.cookies_opening, List.nil_append]
  rfl

end Visit

end SessionGateway
