/-
  Provenance — where the arguments of an operation come from.

  Besides the two operations that serve the gateway itself, a request runs one operation.  It gets
  the body, the segments of the path and the object of the parameters, in which the value of the
  authentication has its place.

  * `operate_args`: the arguments of a service are built with the value that its own
    authentication handed on;
  * `entry_provenance`: in every reachable gateway, under the name of the authentication stands
    the value that the scope's own operation gave for this request, or, where it gave none, what
    the client put there;
  * `entry_forged`: so a client makes up an entry of its own where that operation answers true.
-/
import SessionGateway.Proofs.Dispatch.Parameters
import SessionGateway.Proofs.Gateway.Authorization

namespace SessionGateway

variable {σ : Type}

namespace Service

/-- **The arguments of a service are built with the value that was handed on to it.** -/
theorem operate_args {call : Call} {o : Operation} {s : Stage σ} (hq : s.trace.Quiet)
    {scope o' args before}
    (hm : Event.invoke scope o' args before ∈ ((operate call o).runAt s).2.trace)
    (ha : o' ≠ .authenticate) (hr : o' ≠ .responseHeaders) :
    scope = call.path.scope ∧ o' = o ∧ s.session.solution.loaded = true ∧
      ∃ extra s' t, HandsOn call (s.broughtIn call.request.headers) extra s' ∧
        ((operate call o).runAt s).2.trace = s'.trace ++ t ∧
        args = Arguments.build (call.body.map (·.payload)) call.path.arguments
          call.request.query? extra := by
  have hb : (s.broughtIn call.request.headers).trace.Quiet := Stage.quiet_broughtIn hq _
  have hdecided : ∀ r s', (letIn call).runAt (s.broughtIn call.request.headers) = (r, s') →
      Event.invoke scope o' args before ∉ s'.trace :=
    fun _ _ hl hm' => ha (letIn_invokes hb hl hm')
  rcases letIn_cases call (s.broughtIn call.request.headers) with
    ⟨halt, s', hl⟩ | ⟨extra, s', hl, hadmitted⟩
  · rw [runAt_operate, Work.runAt_bind_error hl] at hm
    exact absurd hm (hdecided _ s' hl)
  · obtain ⟨t, ht, hw⟩ := (emits_proceed_with call o extra).word s'
    have hafter : ((operate call o).runAt s).2.trace = s'.trace ++ t := by
      rw [runAt_operate, Work.runAt_bind_ok hl, hw]
    rw [hafter, List.mem_append] at hm
    have hmt := hm.resolve_left (hdecided _ s' hl)
    have hloaded : s.session.solution.loaded = true := by
      refine Bool.eq_true_of_not_eq_false fun hunloaded => ?_
      have hsolution : s'.session.solution.loaded = false := by
        rw [hadmitted.solution, Stage.broughtIn_solution, hunloaded]
      rw [proceed_of_unloaded call o extra hsolution] at hw
      rw [List.append_right_eq_self.1 hw.symm] at hmt
      cases hmt
    obtain ⟨u, hu, v, hv, rfl⟩ := Language.mem_mul.1 ht
    rcases List.mem_append.1 hmt with hmu | hmv
    · exact absurd (Trace.invoke_of_mem hu hmu).2 hr
    · rcases hv with rfl | ⟨before', rfl⟩
      · cases hmv
      · cases List.mem_singleton.1 hmv
        exact ⟨rfl, rfl, hloaded, extra, s', _, letIn_handsOn hl hadmitted, hafter, rfl⟩

end Service

/-- What the authentication of a request hands on to its operation. -/
inductive HandedOn (solution : Solution σ) (scope : Text) (credentials : Option Credentials)
    (request : RequestHead) (shared : σ) (trace : Trace) : Option Payload → Prop where
  /-- The scope's own operation got the credentials, and gave a result. -/
  | byOperation {hook c before result} :
      solution.behaviour? scope .authenticate = some hook →
      credentials = some c →
      Event.invoke scope .authenticate [Payload.ofText c.user, Payload.ofText c.password] before ∈
        trace →
      (hook request [Payload.ofText c.user, Payload.ofText c.password]
        ⟨before, .none, shared⟩).1 = .returned result →
      result.Grants →
      HandedOn solution scope credentials request shared trace (Authentication.handedOn result)
  /-- The scope has no such operation. -/
  | bySettings :
      solution.behaviour? scope .authenticate = none →
      HandedOn solution scope credentials request shared trace none

namespace HandedOn

/-- Only the operations in a trace count. -/
theorem mono {solution : Solution σ} {scope : Text} {credentials : Option Credentials}
    {request : RequestHead} {shared : σ} {t u : Trace} {extra : Option Payload}
    (h : HandedOn solution scope credentials request shared t extra)
    (htu : ∀ scope o args before, Event.invoke scope o args before ∈ t →
      Event.invoke scope o args before ∈ u) :
    HandedOn solution scope credentials request shared u extra := by
  cases h with
  | byOperation hb hc hi hr hg => exact .byOperation hb hc (htu _ _ _ _ hi) hr hg
  | bySettings hb => exact .bySettings hb

/-- What a service gets at the start of a call was handed on to it. -/
theorem of_handsOn {call : Call} {session : Session σ} {draft : Draft} {t u : Trace} {shared : σ}
    {extra : Option Payload} {s' : Stage σ}
    (h : Service.HandsOn call
      ((Stage.start session draft t shared).broughtIn call.request.headers) extra s')
    (hloaded : session.solution.loaded = true) :
    HandedOn session.solution call.path.scope (Credentials.ofHeaders? call.request.headers)
      call.request shared (s'.trace ++ u) extra := by
  cases h with
  | @byOperation c result hf hc he hg =>
    obtain ⟨hook, hhook⟩ := Option.isSome_iff_exists.1 (Solution.existence_eq_found_iff.1 hf).2
    rw [Stage.ending_of_behaviour _ _ hhook, Stage.broughtIn_overrides, Stage.broughtIn_shared] at he
    rw [Stage.broughtIn_solution] at hhook
    refine .byOperation hhook hc ?_ he hg
    rw [Stage.invoked_trace, List.append_assoc]
    exact List.mem_append_right _ List.mem_cons_self
  | bySettings hf =>
    rw [Stage.broughtIn_solution] at hf
    exact .bySettings (Option.not_isSome_iff_eq_none.1 fun hsome =>
      hf (Solution.existence_eq_found_iff.2 ⟨hloaded, hsome⟩))

end HandedOn

/-- The arguments of a call are built with the value that was handed on to it. -/
theorem Call.run_args {registry : Registry σ} (call : Call) (draft : Draft) {pool : SessionPool σ}
    (h : pool.Faithful registry) (shared : σ) {scope o args before}
    (hm : Event.invoke scope o args before ∈ (call.run draft pool shared).trace)
    (ha : o ≠ .authenticate) (hr : o ≠ .responseHeaders) :
    call.verb.operation? = some o ∧ scope = call.path.scope ∧
      ∃ solution extra, registry.get? call.key = some solution ∧
        HandedOn solution call.path.scope (Credentials.ofHeaders? call.request.headers) call.request
          shared (call.run draft pool shared).trace extra ∧
        args = Arguments.build (call.body.map (·.payload)) call.path.arguments call.request.query?
          extra := by
  rcases call.run_serves draft h shared with hq | ⟨session, t, hsolution, ht, hserves⟩
  · exact absurd hm (hq _ _ _ _)
  · have hms := (hserves _ _ _ _).1 hm
    cases hv : call.verb.operation? with
    | none => exact absurd hms (Service.serve_quiet hv ht _ _ _ _)
    | some target =>
      have hs : (Service.serve call : Work σ Unit) = Service.operate call target := by
        rw [Service.serve, hv]
      rw [hs] at hms hserves
      obtain ⟨hscope, rfl, hloaded, extra, s', u, hon, hafter, hargs⟩ :=
        Service.operate_args (s := .start session draft t shared) ht hms ha hr
      refine ⟨rfl, hscope, session.solution, extra, hsolution, ?_, hargs⟩
      rw [hafter] at hserves
      exact (HandedOn.of_handsOn hon hloaded).mono fun _ _ _ _ hm' => (hserves _ _ _ _).2 hm'

namespace Gateway

/-- **Under the name of the authentication stands the value that it handed on**, and what the
    client put there if it handed on none. -/
theorem entry_provenance {registry : Registry σ} {g : Gateway σ} {held : List (Guard σ)}
    (h : Reachable registry g held) (freshId : Bytes) (request : Request) :
    let trace := (g.handle freshId request).2.1
    let head := (request.identified freshId).toRequestHead
    let query := request.toRequestHead.query?
    ∀ scope o args before, Event.invoke scope o args before ∈ trace → o ≠ .authenticate →
      o ≠ .responseHeaders →
      ∃ verb path solution body extra, g.Admits request verb path ∧ verb.operation? = some o ∧
        scope = path.scope ∧
        registry.get? (Call.keyOf path (CrossOrigin.asksNodebug request.toRequestHead)) =
          some solution ∧
        HandedOn solution path.scope (Credentials.ofHeaders? request.headers) head g.shared trace
          extra ∧
        args = Option.toList body ++ path.arguments.map Payload.ofText ++
          Arguments.slot query extra ∧
        Arguments.entry? (Arguments.slot query extra) =
          match extra with
          | some p => some (.array [p.toJson])
          | none => Arguments.asked Arguments.authenticateKey query := by
  intro trace head query scope o args before hm ha hr
  by_cases hadmits : ∃ verb path, g.Admits request verb path
  · obtain ⟨verb, path, hadmits⟩ := hadmits
    obtain ⟨body, ht⟩ := handle_trace_of_admits hadmits freshId
    have hquery : head.query? = query := by
      show (request.identified freshId).query? = _
      unfold Request.identified
      split <;> rfl
    rw [show trace = _ from ht] at hm ⊢
    obtain ⟨hv, hscope, solution, extra, hs, hon, hargs⟩ :=
      (g.callFor (request.identified freshId) verb path body).run_args (opening head)
        h.faithful.1 g.shared hm ha hr
    refine ⟨verb, path, solution, body.map (·.payload), extra, hadmits, hv, hscope, ?_, ?_, ?_,
      Arguments.entry?_slot query extra⟩
    · simpa only [callFor, Request.asksNodebug_identified] using hs
    · simpa only [callFor, ofHeaders?_identified] using hon
    · rw [← hquery, ← Arguments.build_eq]
      exact hargs
  · rw [show trace = [] from handle_trace_of_not_admits hadmits freshId] at hm
    cases hm

/-- A request whose entry is the result of the scope's own operation, for all that its query says. -/
theorem entry_provenance_vault :
    let vault : List (Operation × Behaviour Unit) :=
      [(.authenticate, fun _ args desk =>
          (.returned (.value (.array (args.map (·.toJson)))), desk)),
        (.read, fun _ _ desk => (.returned .null, desk))]
    let solution : Solution Unit := ⟨"crm".toList, true, [("vault".toList, vault)]⟩
    let registry : Registry Unit := ⟨[solution]⟩
    let g : Gateway Unit := .new {} ⟨registry, []⟩ none ()
    let headers := Headers.ofList
      [(HeaderName.authorization, Utf8.encode "Basic YW5uYTpzZWNyZXQ=".toList)]
    let request : Request :=
      ⟨⟨"GET".toList, "/rest_ws/crm/vault?ws_authenticate=forged".toList, headers⟩, []⟩
    let trace := (g.handle [] request).2.1
    let query := request.toRequestHead.query?
    Reachable registry g [] ∧ ∃ scope args before, Event.invoke scope .read args before ∈ trace ∧
      ∃ verb path solution body extra, g.Admits request verb path ∧
        verb.operation? = some .read ∧ scope = path.scope ∧
        registry.get? (Call.keyOf path (CrossOrigin.asksNodebug request.toRequestHead)) =
          some solution ∧
        HandedOn solution path.scope (Credentials.ofHeaders? request.headers)
          (request.identified []).toRequestHead g.shared trace extra ∧
        args = Option.toList body ++ path.arguments.map Payload.ofText ++
          Arguments.slot query extra ∧
        Arguments.entry? (Arguments.slot query extra) =
          match extra with
          | some p => some (.array [p.toJson])
          | none => Arguments.asked Arguments.authenticateKey query := by
  intro vault solution registry g headers request trace query
  have hg : Reachable registry g [] := .start _ _ _ _
  have hread : trace.any (fun | .invoke _ .read _ _ => true | _ => false) = true := by
    decide +kernel
  obtain ⟨e, hm, he⟩ := List.any_eq_true.1 hread
  split at he
  · next scope args before =>
    exact ⟨hg, scope, args, before, hm,
      entry_provenance hg [] request scope .read args before hm (by decide) (by decide)⟩
  · cases he

/-- Where the scope's own operation just answers true, a client makes up the entry: the operation
    finds none for one query, and the client's for another, however the name is spelled. -/
theorem entry_forged :
    let vault : List (Operation × Behaviour Unit) :=
      [(.authenticate, fun _ _ desk => (.returned (.value (.bool true)), desk)),
        (.read, fun _ _ desk => (.returned .null, desk))]
    let registry : Registry Unit := ⟨[⟨"crm".toList, true, [("vault".toList, vault)]⟩]⟩
    let g : Gateway Unit := .new {} ⟨registry, []⟩ none ()
    let headers := Headers.ofList
      [(HeaderName.authorization, Utf8.encode "Basic YW5uYTpzZWNyZXQ=".toList)]
    let entry := fun query : String =>
      (g.handle [] ⟨⟨"GET".toList, "/rest_ws/crm/vault?".toList ++ query.toList, headers⟩, []⟩).2.1
        |>.findSome? fun
          | .invoke _ .read args _ => some ((Arguments.entry? args).map Json.text)
          | _ => none
    entry "a=1" = some none ∧
      entry "a=1&ws_authenticate=forged" = some (some "[\"forged\"]".toList) ∧
      entry "ws%5Fauthenticate=root&ws_authenticate=x" =
        some (some "[\"root\",\"x\"]".toList) := by
  decide +kernel

end Gateway

end SessionGateway
