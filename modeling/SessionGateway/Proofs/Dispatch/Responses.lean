/-
  Cookies of responses — which ones a request leaves in its response.

  Up to the target operation (`Service.approach`) the only cookies are those that the operation for
  response headers names (`Invocation.cookies`); a computation with this property leads up to the
  target (`Work.LeadsUp`).  Behind a target operation that returned, the properties that it left are
  written, and nothing that follows adds cookies or takes them away.

  * `LeadsUp.bind`: two computations that lead up to the target, behind each other;
  * `serve_cookies`: the cookies of a service whose target operation, if it has one, returned.
-/
import SessionGateway.Proofs.Dispatch.Invocations
import SessionGateway.Proofs.Session.CookieBridge

namespace SessionGateway

open Properties (setCookieName)

variable {σ α β : Type}

/-! ## Cookies of a draft -/

/-- The cookies that a response sets. -/
def Draft.cookies (d : Draft) : List Bytes := d.headers.getAll setCookieName

/-- The cookies among the headers that a result names. -/
def Payload.cookies (result : Payload) : List Bytes :=
  ((Service.itemsOf result.toJson).filterMap Service.headerOf?).filterMap fun e =>
    if e.1 = setCookieName then Header.ofText? e.2 else none

/-- The cookies that an operation for response headers adds. -/
def Invocation.cookies (i : Invocation) : List Bytes :=
  match i.operation, i.ending with
  | .responseHeaders, .returned result => result.cookies
  | _, _ => []

theorem Invocation.cookies_of_ne {i : Invocation} (h : i.operation ≠ .responseHeaders) :
    i.cookies = [] := by
  unfold cookies
  split
  · next ho _ => exact absurd ho h
  · rfl

namespace Draft

theorem cookies_setHeader (d : Draft) {name : Text} (hn : setCookieName ≠ name) (t : Text) :
    (d.setHeader name t).cookies = d.cookies :=
  d.headers.getAll_set_of_ne t hn

theorem cookies_noCache (d : Draft) : d.noCache.cookies = d.cookies := by
  rw [noCache, cookies_setHeader _ (by decide), cookies_setHeader _ (by decide),
    cookies_setHeader _ (by decide)]

theorem cookies_send (d : Draft) (e : Encoded) : (d.send e).cookies = d.cookies :=
  d.cookies_setHeader (by decide) e.contentType

theorem cookies_statusOnly (d : Draft) (status : Nat) : (d.statusOnly status).cookies = d.cookies :=
  d.headers.getAll_erase_of_ne (by decide)

theorem cookies_fail (d : Draft) (e : GatewayError) : (d.fail e).cookies = d.cookies := by
  have hc : ((d.statusOnly e.status).challenged e).cookies = d.cookies := by
    rw [← d.cookies_statusOnly e.status]
    cases e <;> first | rfl | exact cookies_setHeader _ (by decide) _
  unfold fail
  split
  · exact (cookies_setHeader _ (by decide) _).trans hc
  · exact hc

/-- The headers of a result add the cookies that it names. -/
theorem cookies_addHeaders (d : Draft) (result : Payload) :
    (Service.addHeaders d (Service.itemsOf result.toJson)).cookies =
      d.cookies ++ result.cookies := by
  unfold Service.addHeaders Payload.cookies
  generalize (Service.itemsOf result.toJson).filterMap Service.headerOf? = headers
  induction headers generalizing d with
  | nil => exact (List.append_nil _).symm
  | cons e headers ih =>
    obtain ⟨name, value⟩ := e
    rw [List.foldl_cons, ih, List.filterMap_cons]
    by_cases hn : name = setCookieName
    · have hadd : (d.addHeader name value).cookies =
          d.cookies ++ (Header.ofText? value).toList := by
        rw [hn]
        exact d.headers.getAll_add value setCookieName
      rw [hadd]
      cases Header.ofText? value <;> simp [hn]
    · have hadd : (d.addHeader name value).cookies = d.cookies :=
        d.headers.getAll_add_of_ne value (Ne.symm hn)
      rw [hadd]
      simp [hn]

end Draft

/-! ## Up to the target operation -/

namespace Work

/-- A computation that leads up to the target: it does not run it, and adds only the cookies that
    an operation for response headers names. -/
structure LeadsUp (w : Work σ α) (request : RequestHead) (target : Option Operation) : Prop
    extends w.Accounts request target where
  added : ∀ s t, (w.runAt s).2.trace = s.trace ++ t →
    let runs := (Trace.replay s.session.solution request s.desk t).1
    (∀ i ∈ runs, some i.operation ≠ target) ∧
      (w.runAt s).2.draft.cookies = s.draft.cookies ++ runs.flatMap Invocation.cookies

variable {w : Work σ α} {request : RequestHead} {target : Option Operation}

namespace LeadsUp

/-- A computation that runs no operation and adds no cookies. -/
theorem plain (h : w.Accounts request target)
    (hs : ∀ s, (w.runAt s).2.draft.cookies = s.draft.cookies ∧
      ∃ t, (w.runAt s).2.trace = s.trace ++ t ∧
        (Trace.replay s.session.solution request s.desk t).1 = []) :
    w.LeadsUp request target where
  toAccounts := h
  added s t ht := by
    obtain ⟨hc, u, hu, hruns⟩ := hs s
    obtain rfl : t = u := List.append_cancel_left (ht.symm.trans hu)
    rw [hruns, hc]
    exact ⟨nofun, (List.append_nil _).symm⟩

/-- **One computation behind another**, which need not be reached. -/
theorem bind {f : α → Work σ β} (hw : w.LeadsUp request target)
    (hf : ∀ a, (f a).LeadsUp request target) : (w >>= f).LeadsUp request target where
  toAccounts := hw.toAccounts.bind fun a => (hf a).toAccounts
  added s t ht := by
    have hs := hw.solution s
    obtain ⟨u, hu, hd, -⟩ := hw.replay s
    have hadded := hw.added s u hu
    rw [runAt_bind] at ht ⊢
    rcases hr : w.runAt s with ⟨halt | a, s'⟩ <;> rw [hr] at hs hu hd hadded ht
    · obtain rfl : t = u := List.append_cancel_left (ht.symm.trans hu)
      exact hadded
    · obtain ⟨v, hv, -⟩ := (hf a).replay s'
      have hadded' := (hf a).added s' v hv
      obtain rfl : t = u ++ v := by
        rw [hu] at hv
        exact List.append_cancel_left (ht.symm.trans (hv.trans (List.append_assoc _ _ _)))
      rw [hs] at hadded'
      simp only [Trace.replay_append, hd]
      refine ⟨fun i hi => (List.mem_append.1 hi).elim (hadded.1 i) (hadded'.1 i), ?_⟩
      rw [hadded'.2, hadded.2, List.flatMap_append, List.append_assoc]

end LeadsUp

theorem leadsUp_pure (a : α) : (pure a : Work σ α).LeadsUp request target :=
  .plain (accounts_pure a) fun _ => ⟨rfl, [], (List.append_nil _).symm, rfl⟩

theorem leadsUp_get : (get : Work σ (Stage σ)).LeadsUp request target :=
  .plain accounts_get fun _ => ⟨rfl, [], (List.append_nil _).symm, rfl⟩

theorem leadsUp_existence (scope : Text) (o : Operation) :
    (existence scope o : Work σ Existence).LeadsUp request target :=
  .plain (accounts_existence scope o) fun _ => ⟨rfl, [], (List.append_nil _).symm, rfl⟩

theorem leadsUp_refuse {e : GatewayError} (h : e.Benign) :
    (refuse e : Work σ α).LeadsUp request target :=
  .plain (accounts_refuse h) fun _ => ⟨rfl, [], (List.append_nil _).symm, rfl⟩

/-- An operation for authentication adds no cookies. -/
theorem leadsUp_authenticate (ht : some .authenticate ≠ target) (scope : Text)
    (args : List Payload) :
    (invoke scope .authenticate request args : Work σ _).LeadsUp request target where
  toAccounts := accounts_invoke ht scope args
  added s t h := by
    have hinvoke : t = [.invoke scope .authenticate args s.session.properties] := by
      rw [runAt_invoke] at h
      exact (List.append_cancel_left h).symm
    rw [hinvoke, replay_invoke, runAt_invoke]
    exact ⟨List.forall_mem_singleton.2 ht, (List.append_nil _).symm⟩

end Work

namespace Service

open Work

variable {target : Option Operation} {request : RequestHead}

theorem leadsUp_bringIn (h : Headers) : (bringIn h : Work σ Unit).LeadsUp request target :=
  .plain (accounts_bringIn h) fun s => by
    rw [runAt_bringIn]
    unfold Stage.broughtIn
    cases Properties.ofHeaders? h with
    | some p => exact ⟨rfl, [.setProperties p], rfl, rfl⟩
    | none => exact ⟨rfl, [], (List.append_nil _).symm, rfl⟩

theorem leadsUp_letIn (call : Call) (ht : some .authenticate ≠ target) :
    (letIn call : Work σ _).LeadsUp call.request target := by
  refine LeadsUp.bind ?_ fun decision => ?_
  · unfold Authentication.decide
    refine (leadsUp_existence _ _).bind fun x => ?_
    split
    · unfold Authentication.byOperation
      split
      · exact leadsUp_pure _
      · exact (leadsUp_authenticate ht _ _).bind fun r => leadsUp_pure _
    · exact leadsUp_pure _
  · cases decision with
    | allowed extra => exact leadsUp_pure _
    | unauthenticated realm => exact leadsUp_refuse trivial
    | unauthorized reason => exact leadsUp_refuse trivial

theorem leadsUp_verify (scope : Text) (o : Operation) :
    (verify scope o : Work σ Unit).LeadsUp request target := by
  refine (leadsUp_existence scope o).bind fun x => ?_
  cases x with
  | found => exact leadsUp_pure ()
  | noSolution => exact leadsUp_get.bind fun _ => leadsUp_refuse trivial
  | scopeNotFound => exact leadsUp_refuse trivial
  | notFound => exact leadsUp_refuse trivial

theorem leadsUp_responseHeaders (scope : Text) (ht : some .responseHeaders ≠ target) :
    (responseHeaders scope request : Work σ Unit).LeadsUp request target where
  toAccounts := accounts_responseHeaders scope ht
  added s t h := by
    rw [runAt_responseHeaders] at h ⊢
    split at h
    · next hfound =>
      have hinvoke : t = [.invoke scope .responseHeaders [] s.session.properties] := by
        cases he : s.ending scope .responseHeaders request [] <;> rw [he] at h <;>
          exact (List.append_cancel_left h).symm
      rw [hinvoke, replay_invoke, if_pos hfound]
      refine ⟨List.forall_mem_singleton.2 ht, ?_⟩
      cases s.ending scope .responseHeaders request [] with
      | returned result => simpa [Invocation.cookies] using s.draft.cookies_addHeaders result
      | failed e => exact (List.append_nil _).symm
      | crashed m => exact (List.append_nil _).symm
    · next hfound =>
      obtain rfl : t = [] := List.append_right_eq_self.1 h.symm
      rw [if_neg hfound]
      exact ⟨nofun, (List.append_nil _).symm⟩

/-- What a call does before its operation is run, with the arguments for it. -/
def approach (call : Call) (o : Operation) : Work σ (List Payload) := do
  bringIn call.request.headers
  let extra ← letIn call
  verify call.path.scope o
  responseHeaders call.path.scope call.request
  return Arguments.build (call.body.map (·.payload)) call.path.arguments call.request.query? extra

/-- What a call does with its operation. -/
def carryOut (call : Call) (o : Operation) (args : List Payload) : Work σ Unit := do
  match ← Work.invoke call.path.scope o call.request args with
  | .error cause => Work.refuse (.ofFailure cause)
  | .ok result =>
    takeOut call
    respond call o result

theorem operate_eq_approach (call : Call) (o : Operation) :
    (operate call o : Work σ Unit) = approach call o >>= carryOut call o := by
  simp only [operate_eq, approach, bind_assoc, pure_bind]
  rfl

theorem leadsUp_approach (call : Call) {o : Operation}
    (ho : o ≠ .authenticate ∧ o ≠ .responseHeaders) :
    (approach call o : Work σ _).LeadsUp call.request (some o) :=
  (leadsUp_bringIn _).bind fun _ =>
    (leadsUp_letIn call fun h => ho.1 (Option.some.inj h).symm).bind fun _ =>
      (leadsUp_verify _ _).bind fun _ =>
        (leadsUp_responseHeaders _ fun h => ho.2 (Option.some.inj h).symm).bind fun _ =>
          leadsUp_pure _

/-! ## Behind the target operation -/

theorem runAt_takeOut (call : Call) (s : Stage σ) :
    (takeOut call).runAt s = (.ok (), { s with draft := { s.draft with
      headers := s.session.properties.writeTo
        (cookiePath call.config s.session.solution.name) call.secure s.draft.headers } }) := rfl

/-- The path of the cookies of a solution can be written. -/
def PathWritable (config : Config) (solution : Text) : Prop :=
  ∀ c ∈ cookiePath config solution, Header.Writable c

instance (config : Config) (solution : Text) : Decidable (PathWritable config solution) :=
  inferInstanceAs (Decidable (∀ _ ∈ _, _))

/-- The cookies of the given properties, for a solution. -/
def outbound (config : Config) (solution : Text) (secure : Bool) (p : Properties) : List Bytes :=
  p.setCookies (cookiePath config solution) secure

/-- The properties of the session are written behind the cookies that are there. -/
theorem takeOut_cookies (call : Call) {s : Stage σ}
    (hpath : PathWritable call.config s.session.solution.name) :
    ((takeOut call).runAt s).2.draft.cookies = s.draft.cookies ++
      outbound call.config s.session.solution.name call.secure s.session.properties := by
  rw [runAt_takeOut]
  exact s.session.properties.getAll_writeTo hpath call.secure s.draft.headers

/-- Answering with a result adds no cookies, leaves the session alone and does not break off. -/
theorem respond_plain (call : Call) (o : Operation) (result : Payload) (s : Stage σ) :
    ((respond call o result).runAt s).2.draft.cookies = s.draft.cookies ∧
      ((respond call o result).runAt s).2.session = s.session ∧
      ((respond call o result).runAt s).2.trace = s.trace ∧
      ∀ m, ((respond call o result).runAt s).1 ≠ .error (.crashed m) := by
  have hsend : ∀ s : Stage σ, ((send call result).runAt s).2.draft.cookies = s.draft.cookies ∧
      ((send call result).runAt s).2.session = s.session ∧
      ((send call result).runAt s).2.trace = s.trace ∧
      ∀ m, ((send call result).runAt s).1 ≠ .error (.crashed m) := by
    intro s
    have hr : (send call result).runAt s = _ := runAt_bind_ok (runAt_get s)
    rw [hr]
    cases encode call s.overrides result with
    | ok e => exact ⟨s.draft.cookies_send e, rfl, rfl, nofun⟩
    | error e => exact ⟨rfl, rfl, rfl, nofun⟩
  unfold respond
  split
  · exact ⟨s.draft.cookies_statusOnly 404, rfl, rfl, nofun⟩
  · rw [runAt_bind_ok (runAt_draft _ _)]
    split
    · exact ⟨s.draft.cookies_noCache, rfl, rfl, nofun⟩
    · obtain ⟨hc, hrest⟩ := hsend { s with draft := s.draft.noCache }
      exact ⟨hc.trans s.draft.cookies_noCache, hrest⟩

/-- The properties that an operation left are written behind it, and the result is answered. -/
theorem runAt_carryOut (call : Call) (o : Operation) (args : List Payload) (s : Stage σ) :
    (carryOut call o args).runAt s =
      let after := s.invoked call.path.scope o call.request args
      match s.ending call.path.scope o call.request args with
      | .returned result => (takeOut call >>= fun _ => respond call o result).runAt after
      | .failed cause => (.error (.refused (.ofFailure cause)), after)
      | .crashed m => (.error (.crashed m), after) := by
  unfold carryOut
  rw [runAt_bind, runAt_invoke]
  cases s.ending call.path.scope o call.request args <;> rfl

theorem carryOut_trace (call : Call) (o : Operation) (args : List Payload) (s : Stage σ) :
    ((carryOut call o args).runAt s).2.trace =
      s.trace ++ [.invoke call.path.scope o args s.session.properties] := by
  rw [runAt_carryOut]
  cases s.ending call.path.scope o call.request args with
  | returned result =>
    simp only [runAt_bind_ok (runAt_takeOut call _)]
    exact (respond_plain call o result _).2.2.1
  | failed cause => rfl
  | crashed m => rfl

/-- An operation that returned leaves the cookies of the properties that it left. -/
theorem carryOut_returned (call : Call) {o : Operation} {args : List Payload} {s : Stage σ}
    (hpath : PathWritable call.config s.session.solution.name) {result : Payload}
    (he : s.ending call.path.scope o call.request args = .returned result) :
    let final := (carryOut call o args).runAt s
    (∀ m, final.1 ≠ .error (.crashed m)) ∧
      final.2.draft.cookies = s.draft.cookies ++
        outbound call.config s.session.solution.name call.secure final.2.session.properties := by
  have hsolution := Stage.invoked_solution s call.path.scope o call.request args
  have hwritten := takeOut_cookies (s := s.invoked call.path.scope o call.request args) call
    (by rwa [hsolution])
  obtain ⟨hc, hsession, -, hcrash⟩ := respond_plain call o result
    ((takeOut call).runAt (s.invoked call.path.scope o call.request args)).2
  have hrun : (carryOut call o args).runAt s = (respond call o result).runAt
      ((takeOut call).runAt (s.invoked call.path.scope o call.request args)).2 := by
    rw [runAt_carryOut, he]
    exact runAt_bind_ok (runAt_takeOut call _)
  intro final
  have hleft : final.2.session = (s.invoked call.path.scope o call.request args).session :=
    (congrArg (·.2.session) hrun).trans hsession
  rw [hleft, show final = _ from hrun]
  refine ⟨hcrash, hc.trans (hwritten.trans ?_)⟩
  rw [hsolution]
  rfl

/-- A service whose target operation returned does not break off, and leaves the cookies of the
    properties that are then in the session. -/
theorem operate_returned (call : Call) {o : Operation}
    (ho : o ≠ .authenticate ∧ o ≠ .responseHeaders) {s : Stage σ}
    (hpath : PathWritable call.config s.session.solution.name) {t : Trace}
    (ht : ((operate call o).runAt s).2.trace = s.trace ++ t)
    (hreturned : Returns (some o)
      (Trace.replay s.session.solution call.request s.desk t).1) :
    let final := (operate call o).runAt s
    (∀ m, final.1 ≠ .error (.crashed m)) ∧
      final.2.draft.cookies = s.draft.cookies ++
        (Trace.replay s.session.solution call.request s.desk t).1.flatMap Invocation.cookies ++
          outbound call.config s.session.solution.name call.secure final.2.session.properties := by
  obtain ⟨i, hi, hio, result, hending⟩ := hreturned o rfl
  have hleads := leadsUp_approach (σ := σ) call ho
  obtain ⟨u, hu, hd, -⟩ := hleads.replay s
  obtain ⟨hothers, hcookies⟩ := hleads.added s u hu
  have hsolution := hleads.solution s
  rw [operate_eq_approach, runAt_bind] at ht ⊢
  rcases hr : (approach call o).runAt s with ⟨halt | args, s'⟩ <;>
    rw [hr] at hu hd hcookies hsolution ht
  · -- the target operation was not reached
    obtain rfl : t = u := List.append_cancel_left (ht.symm.trans hu)
    exact absurd (congrArg some hio) (hothers i hi)
  · have hsolution : s'.session.solution = s.session.solution := hsolution
    have hlast := carryOut_trace call o args s'
    obtain rfl : t = u ++ [.invoke call.path.scope o args s'.session.properties] := by
      rw [hu] at hlast
      exact List.append_cancel_left (ht.symm.trans (hlast.trans (List.append_assoc _ _ _)))
    have hinvoke : Trace.replay s'.session.solution call.request s'.desk
        [.invoke call.path.scope o args s'.session.properties] = _ :=
      replay_invoke s' call.path.scope o args
    rw [hsolution] at hinvoke
    simp only [Trace.replay_append, hd, hinvoke] at hi ⊢
    rcases List.mem_append.1 hi with hi | hi
    · exact absurd (congrArg some hio) (hothers i hi)
    rw [List.mem_singleton.1 hi] at hending
    obtain ⟨hcrash, hwritten⟩ := carryOut_returned call (by rwa [hsolution]) hending
    refine ⟨hcrash, hwritten.trans ?_⟩
    rw [show s'.draft.cookies = _ from hcookies, hsolution, List.flatMap_append,
      List.flatMap_singleton, Invocation.cookies_of_ne ho.2, List.append_nil]

/-- The response to an OPTIONS request, before the properties are written. -/
def described (call : Call) (solution : Solution σ) (d : Draft) : Draft :=
  let headers := allowedHeaders (call.request.headers.text? HeaderName.requestHeaders)
  ((d.setHeader HeaderName.allow (allowed solution call.path.scope)).setHeader
    HeaderName.allowHeaders headers).setHeader HeaderName.exposeHeaders
      (headers ++ ", ".toList ++ HeaderName.nodebug ++ ", ".toList ++ Properties.headerName)

theorem cookies_described (call : Call) (solution : Solution σ) (d : Draft) :
    (described call solution d).cookies = d.cookies := by
  rw [described, Draft.cookies_setHeader _ (by decide), Draft.cookies_setHeader _ (by decide),
    Draft.cookies_setHeader _ (by decide)]

theorem runAt_describe (call : Call) (s : Stage σ) :
    (describe call).runAt s =
      (takeOut call).runAt { s with draft := described call s.session.solution s.draft } := by
  have hget : (describe call).runAt s = _ := runAt_bind_ok (runAt_get s)
  rw [hget]
  exact runAt_bind_ok (runAt_draft _ s)

theorem runAt_options (call : Call) (s : Stage σ) :
    (options call).runAt s =
      let s := s.broughtIn call.request.headers
      (takeOut call).runAt { s with draft := described call s.session.solution s.draft } := by
  rw [options_eq, runAt_bind_ok (runAt_bringIn _ _), runAt_describe]

theorem broughtIn_draft (s : Stage σ) (h : Headers) : (s.broughtIn h).draft = s.draft := by
  unfold Stage.broughtIn
  cases Properties.ofHeaders? h <;> rfl

/-- A service without a target operation leaves the cookies of the properties that are then in the
    session. -/
theorem options_cookies (call : Call) {s : Stage σ}
    (hpath : PathWritable call.config s.session.solution.name) :
    let final := (options call).runAt s
    (∀ m, final.1 ≠ .error (.crashed m)) ∧
      final.2.draft.cookies = s.draft.cookies ++
        outbound call.config s.session.solution.name call.secure final.2.session.properties := by
  have hsolution := Stage.broughtIn_solution s call.request.headers
  generalize hin : s.broughtIn call.request.headers = s' at hsolution
  have hdraft : s'.draft = s.draft := by rw [← hin, broughtIn_draft]
  have hwritten := takeOut_cookies call
    (s := { s' with draft := described call s'.session.solution s'.draft }) (by rwa [hsolution])
  rw [cookies_described] at hwritten
  simp only [runAt_options, hin, ← hsolution, ← hdraft]
  exact ⟨nofun, hwritten⟩

/-- Without a target operation, nothing is run. -/
theorem replay_inbound {solution : Solution σ} {request : RequestHead} {desk : Desk σ} {h : Headers}
    {t : Trace} (ht : t ∈ Trace.inbound h) : (Trace.replay solution request desk t).1 = [] := by
  rcases ht with ⟨p, -, rfl⟩ | ⟨-, rfl⟩ <;> rfl

/-- **A service that succeeds** does not break off, and leaves the cookies of the properties that
    are then in the session, behind those that an operation for response headers named. -/
theorem serve_cookies (call : Call) {s : Stage σ}
    (hpath : PathWritable call.config s.session.solution.name) {t : Trace}
    (ht : ((serve call).runAt s).2.trace = s.trace ++ t)
    (hreturns : Returns call.verb.operation?
      (Trace.replay s.session.solution call.request s.desk t).1) :
    let final := (serve call).runAt s
    (∀ m, final.1 ≠ .error (.crashed m)) ∧
      final.2.draft.cookies = s.draft.cookies ++
        (Trace.replay s.session.solution call.request s.desk t).1.flatMap Invocation.cookies ++
          outbound call.config s.session.solution.name call.secure final.2.session.properties := by
  cases hv : call.verb.operation? with
  | some o =>
    rw [hv] at hreturns
    have hserve : (serve call : Work σ Unit) = operate call o := by rw [serve, hv]
    rw [hserve] at ht ⊢
    exact operate_returned call (operation_of_verb hv) hpath ht hreturns
  | none =>
    have hserve : (serve call : Work σ Unit) = options call := by rw [serve, hv]
    obtain ⟨u, hu, hword⟩ := (serve_emits call).word s
    obtain rfl : t = u := List.append_cancel_left (ht.symm.trans hword)
    rw [hv, show Trace.operations call.path.scope none = 1 from rfl, mul_one] at hu
    rw [hserve, replay_inbound hu, List.flatMap_nil, List.append_nil]
    exact options_cookies call hpath

end Service

end SessionGateway
