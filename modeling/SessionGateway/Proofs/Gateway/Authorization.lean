/-
  Authorization — no operation runs for a request that was not let in.

  A trace is guarded (`Trace.Guarded`) if every operation in it besides the one for
  authentication is authorized (`Authorized`), and none of them is run where that one denies.

  * `of_refused`, `of_operation`, `of_settings`: the three ways in which a trace is guarded;
  * `operate_guarded`: every service leaves a guarded trace;
  * `Call.run_of_checkOut`: a call that gets a session is its service on the stage of that session;
  * `invoked_authorized`: in every reachable gateway, a request for which any other operation
    runs is authorized, and none runs behind an authentication that denies or breaks off.
-/
import SessionGateway.Proofs.Dispatch.Authentication
import SessionGateway.Proofs.Gateway.Reachability

namespace SessionGateway

variable {σ : Type}

/-! ## Operations in a trace -/

namespace Trace

/-- No operation is run in a trace. -/
def Quiet (t : Trace) : Prop := ∀ scope o args before, Event.invoke scope o args before ∉ t

theorem quiet_nil : Quiet [] := by
  intro scope o args before h
  cases h

theorem Quiet.append {t u : Trace} (ht : t.Quiet) (hu : u.Quiet) : (t ++ u).Quiet := by
  intro scope o args before h
  rcases List.mem_append.1 h with h | h
  · exact ht _ _ _ _ h
  · exact hu _ _ _ _ h

theorem Quiet.mem_append_iff {t u : Trace} (ht : t.Quiet) {scope o args before} :
    Event.invoke scope o args before ∈ t ++ u ↔ Event.invoke scope o args before ∈ u := by
  rw [List.mem_append]
  exact or_iff_right (ht _ _ _ _)

theorem quiet_mul {L M : Language Event} (hL : ∀ t ∈ L, Quiet t) (hM : ∀ t ∈ M, Quiet t) :
    ∀ t ∈ L * M, Quiet t := by
  intro t ht
  obtain ⟨a, ha, b, hb, rfl⟩ := Language.mem_mul.1 ht
  exact (hL a ha).append (hM b hb)

theorem quiet_optional {L : Language Event} (hL : ∀ t ∈ L, Quiet t) : ∀ t ∈ 1 + L, Quiet t := by
  rintro t (rfl | ht)
  · exact quiet_nil
  · exact hL t ht

variable {key : Text}

theorem quiet_built : ∀ t ∈ built key, Quiet t := by
  rintro t rfl scope o args before h
  simp at h

theorem quiet_answered {failed : Bool} : ∀ t ∈ answered key failed, Quiet t := by
  rintro t ⟨error, -, rfl⟩ scope o args before h
  simp at h

theorem quiet_taken : ∀ t ∈ taken key, Quiet t :=
  quiet_mul (quiet_optional quiet_built) quiet_answered

theorem quiet_refused : ∀ t ∈ refused key, Quiet t :=
  quiet_mul (quiet_optional quiet_built) quiet_answered

theorem quiet_inbound {h : Headers} : ∀ t ∈ inbound h, Quiet t := by
  rintro t (⟨p, -, rfl⟩ | ⟨-, rfl⟩)
  · rintro scope o args before h
    simp at h
  · exact quiet_nil

theorem quiet_reporting : ∀ t ∈ 1 + reporting, Quiet t := by
  refine quiet_optional ?_
  rintro t ⟨context, message, rfl⟩ scope o args before h
  simp at h

theorem quiet_released : ∀ t ∈ released key, Quiet t := by
  rintro t ⟨reload, rfl⟩ scope o args before h
  simp at h

/-- Which operations one invocation may show. -/
theorem invoke_of_mem {t : Trace} {scope : Text} {o : Operation}
    (ht : t ∈ 1 + invocation scope o) {scope' o' args before}
    (h : Event.invoke scope' o' args before ∈ t) : scope' = scope ∧ o' = o := by
  rcases ht with rfl | ⟨args', before', rfl⟩
  · cases h
  · cases List.mem_singleton.1 h
    exact ⟨rfl, rfl⟩

/-- The operations in a trace are run on a scope, and none is the one for authentication. -/
def Ordinary (t : Trace) (scope : Text) : Prop :=
  ∀ scope' o args before, Event.invoke scope' o args before ∈ t →
    scope' = scope ∧ o ≠ .authenticate

theorem ordinary_of_mem {t : Trace} {scope : Text} {o₁ o₂ : Operation}
    (h₁ : o₁ ≠ .authenticate) (h₂ : o₂ ≠ .authenticate)
    (ht : t ∈ (1 + invocation scope o₁) * (1 + invocation scope o₂)) : t.Ordinary scope := by
  intro scope' o' args before h
  obtain ⟨a, ha, b, hb, rfl⟩ := Language.mem_mul.1 ht
  rcases List.mem_append.1 h with h | h
  · obtain ⟨hs, rfl⟩ := invoke_of_mem ha h
    exact ⟨hs, h₁⟩
  · obtain ⟨hs, rfl⟩ := invoke_of_mem hb h
    exact ⟨hs, h₂⟩

end Trace

/-! ## Authorization -/

/-- What authorizes a request with these credentials to run operations on a scope. -/
inductive Authorized (settings : AuthSettings) (solution : Solution σ) (scope : Text)
    (credentials : Option Credentials) (request : RequestHead) (shared : σ) (trace : Trace) :
    Prop where
  /-- The scope's own operation got the credentials, and its result grants. -/
  | byOperation {hook c before result} :
      solution.behaviour? scope .authenticate = some hook →
      credentials = some c →
      Event.invoke scope .authenticate [Payload.ofText c.user, Payload.ofText c.password] before ∈
        trace →
      (hook request [Payload.ofText c.user, Payload.ofText c.password]
        ⟨before, .none, shared⟩).1 = .returned result →
      result.Grants →
      Authorized settings solution scope credentials request shared trace
  /-- The scope has no such operation, and the settings let the request in. -/
  | bySettings :
      solution.behaviour? scope .authenticate = none →
      settings.Admits credentials →
      Authorized settings solution scope credentials request shared trace

/-- Other operations than the one for authentication are run in a trace only with authorization,
    and none behind one that does not grant. -/
structure Trace.Guarded (trace : Trace) (settings : AuthSettings) (solution : Solution σ)
    (scope : Text) (credentials : Option Credentials) (request : RequestHead) (shared : σ) :
    Prop where
  authorized : ∀ scope' o args before, Event.invoke scope' o args before ∈ trace →
    o ≠ .authenticate →
      scope' = scope ∧ Authorized settings solution scope credentials request shared trace
  denied : ∀ hook args before, solution.behaviour? scope .authenticate = some hook →
    Event.invoke scope .authenticate args before ∈ trace →
    (∀ result, (hook request args ⟨before, .none, shared⟩).1 = .returned result →
      ¬ result.Grants) →
    ∀ scope' o args' before', Event.invoke scope' o args' before' ∈ trace → o = .authenticate

namespace Trace.Guarded

open Authentication (credentialArgs)

variable {t u : Trace} {settings : AuthSettings} {solution : Solution σ} {scope : Text}
  {credentials : Option Credentials} {request : RequestHead} {shared : σ}

theorem of_quiet (h : t.Quiet) : t.Guarded settings solution scope credentials request shared where
  authorized _ _ _ _ hm _ := absurd hm (h _ _ _ _)
  denied _ _ _ _ _ _ _ _ _ _ hm := absurd hm (h _ _ _ _)

/-- A trace with at most one operation, for authentication. -/
theorem of_refused (ht : t.Quiet) (hu : u ∈ 1 + Trace.invocation scope .authenticate) :
    (t ++ u).Guarded settings solution scope credentials request shared := by
  have hall : ∀ scope' o args before, Event.invoke scope' o args before ∈ t ++ u →
      o = .authenticate := fun _ _ _ _ hm => (invoke_of_mem hu (ht.mem_append_iff.1 hm)).2
  exact ⟨fun _ _ _ _ hm ho => absurd (hall _ _ _ _ hm) ho, fun _ _ _ _ _ _ => hall⟩

/-- A trace behind an operation for authentication that grants. -/
theorem of_operation {hook : Behaviour σ} {c : Credentials} {before : Properties}
    {result : Payload} (ht : t.Quiet) (hu : u.Ordinary scope)
    (hhook : solution.behaviour? scope .authenticate = some hook) (hc : credentials = some c)
    (hr : (hook request (credentialArgs c) ⟨before, .none, shared⟩).1 = .returned result)
    (hg : result.Grants) :
    (t ++ .invoke scope .authenticate (credentialArgs c) before :: u).Guarded settings solution scope
      credentials request shared where
  authorized scope' o args before' hm ho := by
    rcases List.mem_cons.1 (ht.mem_append_iff.1 hm) with heq | hm
    · cases heq
      exact absurd rfl ho
    · exact ⟨(hu _ _ _ _ hm).1, .byOperation hhook hc
        (ht.mem_append_iff.2 List.mem_cons_self) hr hg⟩
  denied hook' args before' hhook' hm hdenied := by
    cases hhook.symm.trans hhook'
    rcases List.mem_cons.1 (ht.mem_append_iff.1 hm) with heq | hm
    · cases heq
      exact absurd hg (hdenied result hr)
    · exact absurd rfl (hu _ _ _ _ hm).2

/-- A trace without an operation for authentication, where the settings let in. -/
theorem of_settings (ht : t.Quiet) (hu : u.Ordinary scope)
    (hhook : u ≠ [] → solution.behaviour? scope .authenticate = none)
    (hs : settings.Admits credentials) :
    (t ++ u).Guarded settings solution scope credentials request shared where
  authorized scope' o args before hm _ := by
    have hm := ht.mem_append_iff.1 hm
    exact ⟨(hu _ _ _ _ hm).1, .bySettings (hhook (List.ne_nil_of_mem hm)) hs⟩
  denied hook args before _ hm := absurd rfl (hu _ _ _ _ (ht.mem_append_iff.1 hm)).2

/-- Only the operations in a trace count. -/
theorem congr (h : t.Guarded settings solution scope credentials request shared)
    (htu : ∀ scope o args before, Event.invoke scope o args before ∈ u ↔
      Event.invoke scope o args before ∈ t) :
    u.Guarded settings solution scope credentials request shared where
  authorized scope' o args before hm ho := by
    obtain ⟨hs, ha⟩ := h.authorized scope' o args before ((htu _ _ _ _).1 hm) ho
    refine ⟨hs, ?_⟩
    cases ha with
    | byOperation hb hc hi hr hg => exact .byOperation hb hc ((htu _ _ _ _).2 hi) hr hg
    | bySettings hb hs => exact .bySettings hb hs
  denied hook args before hb hm hr scope' o args' before' hm' :=
    h.denied hook args before hb ((htu _ _ _ _).1 hm) hr scope' o args' before'
      ((htu _ _ _ _).1 hm')

end Trace.Guarded

theorem Stage.quiet_broughtIn {s : Stage σ} (hq : s.trace.Quiet) (h : Headers) :
    (s.broughtIn h).trace.Quiet := by
  obtain ⟨t, ht, hw⟩ := (Service.emits_bringIn h).word s
  rw [Service.runAt_bringIn] at hw
  rw [hw]
  exact hq.append (Trace.quiet_inbound t ht)

namespace Service

/-- A service that has no operation runs none. -/
theorem serve_quiet {call : Call} (hv : call.verb.operation? = none) {s : Stage σ}
    (hq : s.trace.Quiet) : ((serve call).runAt s).2.trace.Quiet := by
  obtain ⟨t, ht, hw⟩ := (serve_emits call).word s
  rw [hv] at ht
  obtain ⟨a, ha, b, rfl, rfl⟩ := Language.mem_mul.1 ht
  rw [hw]
  exact hq.append ((Trace.quiet_inbound a ha).append Trace.quiet_nil)

/-- Up to the decision whether a call is let in, no operation is run but the one for it. -/
theorem letIn_invokes {call : Call} {s s' : Stage σ} {r : Except Halt (Option Payload)}
    (hq : s.trace.Quiet) (hl : (letIn call).runAt s = (r, s')) {scope o args before}
    (hm : Event.invoke scope o args before ∈ s'.trace) : o = .authenticate := by
  obtain ⟨t, ht, hw⟩ := (emits_letIn call).word s
  rw [hl] at hw
  rw [show s'.trace = _ from hw] at hm
  exact (Trace.invoke_of_mem ht (hq.mem_append_iff.1 hm)).2

/-- **The trace of a service is guarded**, if no operation was run before it. -/
theorem operate_guarded (call : Call) {o : Operation} (ho : o ≠ .authenticate) (s : Stage σ)
    (hq : s.trace.Quiet) (hov : s.overrides = .none) :
    ((operate call o).runAt s).2.trace.Guarded call.auth s.session.solution call.path.scope
      (Credentials.ofHeaders? call.request.headers) call.request s.shared := by
  -- nothing was run before the authentication, so its operation finds the first overrides and
  -- the shared state as it was
  have hb : (s.broughtIn call.request.headers).trace.Quiet := Stage.quiet_broughtIn hq _
  rcases operate_cases call o s with ⟨t, ht, hw⟩ | ⟨s', hadmitted, t, ht, hw, hl⟩
  · rw [hw]
    exact .of_refused hb ht
  · have hu := Trace.ordinary_of_mem (by decide) ho ht
    cases hadmitted with
    | @byOperation c result hf hc he hg =>
      obtain ⟨hook, hhook⟩ := Option.isSome_iff_exists.1 (Solution.existence_eq_found_iff.1 hf).2
      rw [Stage.ending_of_behaviour _ _ hhook, Stage.broughtIn_overrides, hov,
        Stage.broughtIn_shared] at he
      rw [Stage.broughtIn_solution] at hhook
      rw [hw, Stage.invoked_trace, List.append_assoc]
      exact .of_operation hb hu hhook hc he hg
    | bySettings hf hs =>
      rw [hw]
      refine .of_settings hb hu (fun hne => ?_) hs
      -- a solution that is not loaded hides its operation, but then nothing else is run either
      have hloaded := hl hne
      rw [Stage.broughtIn_solution] at hf hloaded
      exact Option.not_isSome_iff_eq_none.1 fun hsome =>
        hf (Solution.existence_eq_found_iff.2 ⟨hloaded, hsome⟩)

end Service

namespace Call

section
variable {call : Call} {pool : SessionPool σ} {guard : Guard σ} {d : Draft} {shared : σ}

/-- The stage on which a call starts that takes a session out of a pool. -/
def stage (call : Call) (d : Draft) (pool : SessionPool σ) (shared : σ) (guard : Guard σ) :
    Stage σ :=
  .start guard.session d (pool.checkOut call.key).2.1 shared

/-- A call that gets a session works with it on its stage: this makes the response, and adds what
    was run to the trace. -/
theorem run_of_checkOut (hguard : (pool.checkOut call.key).1 = .ok guard) (d : Draft)
    (shared : σ) :
    let work := (Service.serve call).runAt (call.stage d pool shared guard)
    (call.run d pool shared).draft = (call.conclude d work.1 work.2).1 ∧
      ∃ u, Trace.Quiet u ∧ (call.run d pool shared).trace = work.2.trace ++ u := by
  have hrun : call.run d pool shared =
      call.runWith d guard (pool.checkOut call.key).2.1 (pool.checkOut call.key).2.2 shared := by
    rcases hp : pool.checkOut call.key with ⟨r, t, p⟩
    rw [hp] at hguard
    obtain rfl : r = .ok guard := hguard
    rw [run, hp]
  obtain ⟨r, hr, u, hu, hw⟩ :=
    call.runWith_trace d guard (pool.checkOut call.key).2.1 (pool.checkOut call.key).2.2 shared
  rw [hrun]
  refine ⟨rfl, r ++ u, (Trace.quiet_reporting r hr).append (Trace.quiet_released u hu), ?_⟩
  rw [hw, List.append_assoc]
  rfl

theorem quiet_stage (hguard : (pool.checkOut call.key).1 = .ok guard) :
    (call.stage d pool shared guard).trace.Quiet := by
  rcases pool.checkOut_trace call.key with ⟨session, p, t, ht, hp⟩ | ⟨e, p, t, -, hp⟩
  · show (pool.checkOut call.key).2.1.Quiet
    rw [hp]
    exact Trace.quiet_taken t ht
  · rw [hp] at hguard
    cases hguard

end

/-- The operations that a call runs are those of its service, on the solution that its key asks
    for, or the call runs none. -/
theorem run_serves {registry : Registry σ} (call : Call) (draft : Draft) {pool : SessionPool σ}
    (h : pool.Faithful registry) (shared : σ) :
    (call.run draft pool shared).trace.Quiet ∨
      ∃ session t, registry.get? call.key = some session.solution ∧ Trace.Quiet t ∧
        ∀ scope o args before,
          Event.invoke scope o args before ∈ (call.run draft pool shared).trace ↔
          Event.invoke scope o args before ∈
            ((Service.serve call).runAt (.start session draft t shared)).2.trace := by
  have hg := (h.checkOut call.key).2
  unfold run
  rcases pool.checkOut_trace call.key with ⟨session, p', t, ht, hp⟩ | ⟨e, p', t, ht, hp⟩ <;>
    simp only [hp]
  · obtain ⟨-, hsolution⟩ := hg ⟨call.key, session, false⟩ (by rw [hp])
    refine .inr ⟨session, t, hsolution, Trace.quiet_taken t ht, fun scope o args before => ?_⟩
    obtain ⟨r, hr, u, hu, hw⟩ := call.runWith_trace draft ⟨call.key, session, false⟩ t p' shared
    have hquiet := (Trace.quiet_reporting r hr).append (Trace.quiet_released u hu)
    rw [hw, List.append_assoc, List.mem_append]
    exact or_iff_left (hquiet _ _ _ _)
  · exact .inl (Trace.quiet_refused t ht)

/-- The trace of a call is guarded by the solution that its key asks for, or runs nothing. -/
theorem run_guarded {registry : Registry σ} (call : Call) (draft : Draft)
    {pool : SessionPool σ} (h : pool.Faithful registry) (shared : σ) :
    (call.run draft pool shared).trace.Quiet ∨
      ∃ solution, registry.get? call.key = some solution ∧
        (call.run draft pool shared).trace.Guarded call.auth solution call.path.scope
          (Credentials.ofHeaders? call.request.headers) call.request shared := by
  rcases call.run_serves draft h shared with hq | ⟨session, t, hsolution, ht, hserves⟩
  · exact .inl hq
  · refine .inr ⟨session.solution, hsolution, ?_⟩
    cases hv : call.verb.operation? with
    | none => exact .congr (.of_quiet (Service.serve_quiet hv ht)) hserves
    | some o =>
      have ho : o ≠ .authenticate := by
        rintro rfl
        cases hverb : call.verb <;> rw [hverb] at hv <;> cases hv
      have hs : (Service.serve call : Work σ Unit) = Service.operate call o := by
        rw [Service.serve, hv]
      rw [hs] at hserves
      exact (Service.operate_guarded call ho (.start session draft t shared) ht rfl).congr hserves

end Call

namespace Gateway

theorem ofHeaders?_identified (request : Request) (freshId : Bytes) :
    Credentials.ofHeaders? (request.identified freshId).headers =
      Credentials.ofHeaders? request.headers := by
  unfold Credentials.ofHeaders?
  rw [Request.identified_text? request freshId (by decide)]

/-- **No operation runs without authorization**, in any gateway that can come to be. -/
theorem invoked_authorized {registry : Registry σ} {g : Gateway σ} {held : List (Guard σ)}
    (h : Reachable registry g held) (freshId : Bytes) (request : Request) :
    let trace := (g.handle freshId request).2.1
    let head := (request.identified freshId).toRequestHead
    let keyOf := fun path => Call.keyOf path (CrossOrigin.asksNodebug request.toRequestHead)
    (∀ scope o args before, Event.invoke scope o args before ∈ trace → o ≠ .authenticate →
      ∃ verb path solution, g.Admits request verb path ∧ scope = path.scope ∧
        registry.get? (keyOf path) = some solution ∧
        Authorized g.auth solution path.scope (Credentials.ofHeaders? request.headers) head g.shared
          trace) ∧
    ∀ verb path solution hook args before, g.Admits request verb path →
      registry.get? (keyOf path) = some solution →
      solution.behaviour? path.scope .authenticate = some hook →
      Event.invoke path.scope .authenticate args before ∈ trace →
      (∀ result, (hook head args ⟨before, .none, g.shared⟩).1 = .returned result →
        ¬ result.Grants) →
      ∀ scope o args' before', Event.invoke scope o args' before' ∈ trace → o = .authenticate := by
  intro trace head keyOf
  have hrun : ∀ verb path, g.Admits request verb path → trace.Quiet ∨
      ∃ solution, registry.get? (keyOf path) = some solution ∧
        trace.Guarded g.auth solution path.scope (Credentials.ofHeaders? request.headers) head
          g.shared := by
    intro verb path ha
    obtain ⟨body, hb⟩ := route_of_admits ((admits_identified freshId).2 ha)
    have ht : trace = _ := congrArg Prod.fst ((handle_eq g freshId request).trans (congrArg _ hb))
    have hr := (g.callFor (request.identified freshId) verb path body).run_guarded
      (opening head) h.faithful.1 g.shared
    rw [ht]
    simpa only [keyOf, runCall_trace, callFor, Request.asksNodebug_identified,
      ofHeaders?_identified] using hr
  constructor
  · intro scope o args before hm ho
    by_cases ha : ∃ verb path, g.Admits request verb path
    · obtain ⟨verb, path, ha⟩ := ha
      rcases hrun verb path ha with hq | ⟨solution, hs, hg⟩
      · exact absurd hm (hq _ _ _ _)
      · obtain ⟨hscope, hauth⟩ := hg.authorized _ _ _ _ hm ho
        exact ⟨verb, path, solution, ha, hscope, hs, hauth⟩
    · rw [show trace = [] from handle_trace_of_not_admits ha freshId] at hm
      cases hm
  · intro verb path solution hook args before ha hs hb hm hr
    rcases hrun verb path ha with hq | ⟨solution', hs', hg⟩
    · exact absurd hm (hq _ _ _ _)
    · cases hs.symm.trans hs'
      exact hg.denied hook args before hb hm hr

/-- A request that its scope's own operation lets in, with the credentials that it carries. -/
theorem invoked_authorized_by_operation :
    let orders : List (Operation × Behaviour Unit) :=
      [(.authenticate, fun _ args desk =>
          (.returned (.value (.array (args.map (·.toJson)))), desk)),
        (.read, fun _ _ desk => (.returned .null, desk))]
    let registry : Registry Unit := ⟨[⟨"crm".toList, true, [("orders".toList, orders)]⟩]⟩
    let g : Gateway Unit := .new {} ⟨registry, []⟩ none ()
    let headers := Headers.ofList
      [(HeaderName.authorization, Utf8.encode "Basic YW5uYTpzZWNyZXQ=".toList)]
    let request : Request := ⟨⟨"GET".toList, "/rest_ws/crm/orders".toList, headers⟩, []⟩
    let trace := (g.handle [] request).2.1
    Reachable registry g [] ∧ ∃ scope args before, Event.invoke scope .read args before ∈ trace ∧
      ∃ verb path solution, g.Admits request verb path ∧ scope = path.scope ∧
        registry.get? (Call.keyOf path (CrossOrigin.asksNodebug request.toRequestHead)) =
          some solution ∧
        Authorized g.auth solution path.scope (Credentials.ofHeaders? request.headers)
          (request.identified []).toRequestHead g.shared trace := by
  intro orders registry g headers request trace
  have hg : Reachable registry g [] := .start _ _ _ _
  have hread : trace.any (fun | .invoke _ .read _ _ => true | _ => false) = true := by
    decide +kernel
  obtain ⟨e, hm, he⟩ := List.any_eq_true.1 hread
  split at he
  · next scope args before =>
    exact ⟨hg, scope, args, before, hm,
      (invoked_authorized hg [] request).1 scope .read args before hm (by decide)⟩
  · cases he

end Gateway

end SessionGateway
