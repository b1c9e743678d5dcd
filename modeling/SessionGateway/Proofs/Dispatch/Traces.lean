/-
  Traces — what a request asks of the pool and of its session, and in which order.

  The traces are described by languages over events: `1` is the empty trace, `+` is a choice
  and `*` is one trace behind another.  A computation emits a language (`Work.Emits`) if what
  it adds to any trace is a word of it, however it ends; no computation gives the session
  another solution.  `Emits.bind` puts two computations behind each other.

  * `serve_emits`: a service brings in the properties of its request, and then runs at most
    three operations, each at most once;
  * `trace_bracketed`: the trace of a request is empty exactly if the request is not admitted;
    otherwise a session is refused, or it is taken and given back once under its own key.
-/
import Mathlib.Computability.Language
import SessionGateway.Proofs.Dispatch.Admission
import SessionGateway.Proofs.Dispatch.Runs
import SessionGateway.Proofs.Pool.Checkout

namespace SessionGateway

variable {σ α β : Type}

/-! ## Languages -/

namespace Trace

/-- An operation is run on a scope. -/
def invocation (scope : Text) (o : Operation) : Language Event :=
  {t | ∃ args before, t = [.invoke scope o args before]}

/-- An operation is run on a scope with the given arguments. -/
def invocationWith (scope : Text) (o : Operation) (args : List Payload) : Language Event :=
  {t | ∃ before, t = [.invoke scope o args before]}

/-- The properties of a request are set, unless they cannot be read. -/
def inbound (h : Headers) : Language Event :=
  {t | (∃ p, Properties.ofHeaders? h = some p ∧ t = [.setProperties p]) ∨
    (¬ Properties.Readable h ∧ t = [])}

/-- The operations that are run on a scope, in their order, where `o` is asked for. -/
def operations (scope : Text) : Option Operation → Language Event
  | some o => (1 + invocation scope .authenticate) *
      ((1 + invocation scope .responseHeaders) * (1 + invocation scope o))
  | none => 1

/-- A failure is reported. -/
def reporting : Language Event := {t | ∃ context message, t = [.reportError context message]}

/-- A session is built for a key, or is meant to be. -/
def built (key : Text) : Language Event := {t | t = [.build key]}

/-- The pool answers a request for a session, with an error or without one. -/
def answered (key : Text) (failed : Bool) : Language Event :=
  {t | ∃ error : Option PoolError, error.isSome = failed ∧ t = [.acquire key error]}

/-- A session is taken under a key; it may have been built for this. -/
def taken (key : Text) : Language Event := (1 + built key) * answered key false

/-- No session is had under a key. -/
def refused (key : Text) : Language Event := (1 + built key) * answered key true

/-- A session is given back under a key. -/
def released (key : Text) : Language Event := {t | ∃ reload, t = [.release key reload]}

/-- A session is taken, serves a request with these headers, and is given back. -/
def bracket (key : Text) (h : Headers) (scope : Text) (o : Option Operation) : Language Event :=
  taken key * (inbound h * operations scope o * (1 + reporting)) * released key

theorem nil_notMem_refused (key : Text) : [] ∉ refused key := by
  intro h
  obtain ⟨a, -, b, ⟨error, -, rfl⟩, hab⟩ := Language.mem_mul.1 h
  simp at hab

/-- A session that is refused is not acquired. -/
theorem acquire_notMem_refused {key key' : Text} {t : Trace} (ht : t ∈ refused key) :
    Event.acquire key' none ∉ t := by
  obtain ⟨a, ha, b, ⟨error, herror, rfl⟩, rfl⟩ := Language.mem_mul.1 ht
  intro hm
  rcases List.mem_append.1 hm with hm | hm
  · rcases ha with rfl | rfl
    · cases hm
    · cases List.mem_singleton.1 hm
  · cases List.mem_singleton.1 hm
    cases herror

theorem nil_notMem_bracket (key : Text) (h : Headers) (scope : Text) (o : Option Operation) :
    [] ∉ bracket key h scope o := by
  intro hm
  obtain ⟨a, -, b, ⟨reload, rfl⟩, hab⟩ := Language.mem_mul.1 hm
  simp at hab

theorem invocation_of_mem {scope : Text} {o : Operation} {args : List Payload} {t : Trace}
    (h : t ∈ invocationWith scope o args) : t ∈ invocation scope o := by
  obtain ⟨before, ht⟩ := h
  exact ⟨args, before, ht⟩

theorem nil_mem_optional (L : Language Event) : [] ∈ 1 + L := Or.inl rfl

theorem nil_mem_mul {L M : Language Event} (hL : [] ∈ L) (hM : [] ∈ M) : [] ∈ L * M :=
  Language.append_mem_mul hL hM

end Trace

/-! ## Computations -/

namespace Work

/-- A computation adds a word of a language to the trace, however it ends, and leaves the session
    its solution. -/
structure Emits (w : Work σ α) (L : Language Event) : Prop where
  word : ∀ s, ∃ t ∈ L, (w.runAt s).2.trace = s.trace ++ t
  solution : ∀ s, (w.runAt s).2.session.solution = s.session.solution

namespace Emits
variable {L M : Language Event} {w : Work σ α}

theorem mono (hw : w.Emits L) (h : ∀ t ∈ L, t ∈ M) : w.Emits M where
  word s := by
    obtain ⟨t, ht, hs⟩ := hw.word s
    exact ⟨t, h t ht, hs⟩
  solution := hw.solution

/-- A computation that leaves trace and session alone. -/
theorem silent (hw : ∀ s, (w.runAt s).2.trace = s.trace ∧ (w.runAt s).2.session = s.session) :
    w.Emits 1 where
  word s := ⟨[], Language.nil_mem_one, by rw [(hw s).1, List.append_nil]⟩
  solution s := by rw [(hw s).2]

/-- One computation behind another, which need not be reached. -/
theorem bind {f : α → Work σ β} (hw : w.Emits L) (hM : [] ∈ M) (hf : ∀ a, (f a).Emits M) :
    (w >>= f).Emits (L * M) where
  word s := by
    obtain ⟨t, ht, hs⟩ := hw.word s
    rw [runAt_bind]
    rcases hr : w.runAt s with ⟨_ | a, s'⟩
    · refine ⟨t ++ [], Language.append_mem_mul ht hM, ?_⟩
      rw [List.append_nil, ← hs, hr]
    · obtain ⟨u, hu, hs'⟩ := (hf a).word s'
      refine ⟨t ++ u, Language.append_mem_mul ht hu, ?_⟩
      rw [hs', ← List.append_assoc, ← hs, hr]
  solution s := by
    have hs := hw.solution s
    rw [runAt_bind]
    rcases hr : w.runAt s with ⟨_ | a, s'⟩ <;> rw [hr] at hs
    · exact hs
    · exact ((hf a).solution s').trans hs

theorem silent_bind {f : α → Work σ β} (hw : w.Emits 1) (hM : [] ∈ M) (hf : ∀ a, (f a).Emits M) :
    (w >>= f).Emits M := by
  simpa using hw.bind hM hf

theorem bind_silent {f : α → Work σ β} (hw : w.Emits L) (hf : ∀ a, (f a).Emits 1) :
    (w >>= f).Emits L := by
  simpa using hw.bind Language.nil_mem_one hf

theorem optional (hw : w.Emits L) : w.Emits (1 + L) := hw.mono fun _ h => Or.inr h

theorem skipped (hw : w.Emits 1) : w.Emits (1 + L) := hw.mono fun _ h => Or.inl h

end Emits

theorem emits_pure (a : α) : (pure a : Work σ α).Emits 1 := .silent fun _ => ⟨rfl, rfl⟩

theorem emits_get : (get : Work σ (Stage σ)).Emits 1 := .silent fun _ => ⟨rfl, rfl⟩

theorem emits_refuse (e : GatewayError) : (refuse e : Work σ α).Emits 1 :=
  .silent fun _ => ⟨rfl, rfl⟩

theorem emits_draft (f : Draft → Draft) : (draft f : Work σ Unit).Emits 1 :=
  .silent fun _ => ⟨rfl, rfl⟩

theorem emits_existence (scope : Text) (o : Operation) :
    (existence scope o : Work σ Existence).Emits 1 := .silent fun _ => ⟨rfl, rfl⟩

theorem emits_orRefuse (r : Except GatewayError α) : (orRefuse r : Work σ α).Emits 1 :=
  .silent fun s => by rw [runAt_orRefuse]; exact ⟨rfl, rfl⟩

theorem emits_invoke_with (scope : Text) (o : Operation) (request : RequestHead)
    (args : List Payload) :
    (invoke scope o request args : Work σ _).Emits (Trace.invocationWith scope o args) where
  word s := ⟨_, ⟨s.session.properties, rfl⟩, by rw [runAt_invoke, Stage.invoked_trace]⟩
  solution s := by rw [runAt_invoke, Stage.invoked_solution]

theorem emits_invoke (scope : Text) (o : Operation) (request : RequestHead) (args : List Payload) :
    (invoke scope o request args : Work σ _).Emits (Trace.invocation scope o) :=
  (emits_invoke_with scope o request args).mono fun _ => Trace.invocation_of_mem

end Work

/-! ## Services -/

namespace Service

open Work Trace

theorem emits_bringIn (h : Headers) : (bringIn h : Work σ Unit).Emits (inbound h) where
  word s := by
    rw [runAt_bringIn]
    unfold Stage.broughtIn
    cases hp : Properties.ofHeaders? h with
    | some p => exact ⟨_, Or.inl ⟨p, hp, rfl⟩, rfl⟩
    | none =>
      exact ⟨[], Or.inr ⟨Properties.ofHeaders?_eq_none_iff.1 hp, rfl⟩, (List.append_nil _).symm⟩
  solution s := by rw [runAt_bringIn, Stage.broughtIn_solution]

theorem emits_takeOut (call : Call) : (takeOut call : Work σ Unit).Emits 1 :=
  emits_get.silent_bind rfl fun _ => emits_draft _

theorem emits_describe (call : Call) : (describe call : Work σ Unit).Emits 1 :=
  emits_get.silent_bind rfl fun _ =>
    (emits_draft _).silent_bind rfl fun _ => emits_takeOut call

theorem emits_letIn (call : Call) :
    (letIn call : Work σ _).Emits (1 + invocation call.path.scope .authenticate) := by
  refine Emits.bind_silent ?_ fun decision => emits_orRefuse _
  unfold Authentication.decide
  refine (emits_existence _ _).silent_bind (nil_mem_optional _) fun x => ?_
  split
  · unfold Authentication.byOperation
    split
    · exact (emits_pure _).skipped
    · exact (emits_invoke _ _ _ _).optional.bind_silent fun r => emits_pure _
  · exact (emits_pure _).skipped

theorem emits_verify (scope : Text) (o : Operation) : (verify scope o : Work σ Unit).Emits 1 := by
  refine (emits_existence scope o).silent_bind rfl fun x => ?_
  cases x with
  | found => exact emits_pure ()
  | noSolution => exact emits_get.silent_bind rfl fun _ => emits_refuse _
  | scopeNotFound => exact emits_refuse _
  | notFound => exact emits_refuse _

theorem emits_responseHeaders (scope : Text) (request : RequestHead) :
    (responseHeaders scope request : Work σ Unit).Emits
      (1 + invocation scope .responseHeaders) := by
  refine (emits_existence _ _).silent_bind (nil_mem_optional _) fun x => ?_
  split
  · refine (emits_invoke _ _ _ _).optional.bind_silent fun r => ?_
    cases r with
    | ok result => exact emits_draft _
    | error e => exact emits_pure ()
  · exact (emits_pure ()).skipped

theorem emits_respond (call : Call) (o : Operation) (result : Payload) :
    (respond call o result : Work σ Unit).Emits 1 := by
  have hsend : (send call result : Work σ Unit).Emits 1 := by
    refine emits_get.silent_bind rfl fun s => ?_
    cases encode call s.overrides result with
    | ok e => exact emits_draft _
    | error e => exact emits_refuse _
  unfold respond
  split
  · exact emits_draft _
  · refine (emits_draft _).silent_bind rfl fun _ => ?_
    split
    · exact emits_pure ()
    · exact hsend

/-- What is made of the result of an operation adds nothing to the trace. -/
theorem emits_answer (call : Call) (o : Operation) (r : Except InvocationError Payload) :
    (match r with
      | .error cause => Work.refuse (.operationFailed cause cause.isUserScript)
      | .ok result => do
        takeOut call
        respond call o result : Work σ Unit).Emits 1 := by
  cases r with
  | error cause => exact emits_refuse _
  | ok result => exact (emits_takeOut call).silent_bind rfl fun _ => emits_respond call o result

/-- A call that is let in runs its operation with the arguments that were built for it. -/
theorem emits_proceed_with (call : Call) (o : Operation) (extra : Option Payload) :
    (proceed call o extra : Work σ Unit).Emits
      ((1 + invocation call.path.scope .responseHeaders) *
        (1 + invocationWith call.path.scope o
          (Arguments.build (call.body.map (·.payload)) call.path.arguments call.request.query?
            extra))) := by
  refine (emits_verify _ _).silent_bind (nil_mem_mul (nil_mem_optional _) (nil_mem_optional _))
    fun _ => ?_
  refine (emits_responseHeaders _ _).bind (nil_mem_optional _) fun _ => ?_
  exact (emits_invoke_with _ _ _ _).optional.bind_silent fun r => emits_answer call o r

theorem emits_proceed (call : Call) (o : Operation) (extra : Option Payload) :
    (proceed call o extra : Work σ Unit).Emits
      ((1 + invocation call.path.scope .responseHeaders) * (1 + invocation call.path.scope o)) := by
  refine (emits_proceed_with call o extra).mono fun t ht => ?_
  obtain ⟨a, ha, b, hb, rfl⟩ := Language.mem_mul.1 ht
  exact Language.append_mem_mul ha (hb.imp id Trace.invocation_of_mem)

/-- **A service brings in properties, and then runs each operation at most once.** -/
theorem serve_emits (call : Call) :
    (serve call : Work σ Unit).Emits
      (inbound call.request.headers * operations call.path.scope call.verb.operation?) := by
  unfold serve
  cases call.verb.operation? with
  | none =>
    show (options call).Emits _
    rw [options_eq]
    exact (emits_bringIn _).bind rfl fun _ => emits_describe call
  | some o =>
    show (operate call o).Emits _
    rw [operate_eq]
    have hnil : [] ∈ (1 + invocation call.path.scope .responseHeaders) *
        (1 + invocation call.path.scope o) :=
      nil_mem_mul (nil_mem_optional _) (nil_mem_optional _)
    exact (emits_bringIn _).bind (nil_mem_mul (nil_mem_optional _) hnil) fun _ =>
      (emits_letIn call).bind hnil fun extra => emits_proceed call o extra

end Service

/-! ## Calls -/

namespace SessionPool

/-- A session is taken or refused, and the trace says which. -/
theorem checkOut_trace (p : SessionPool σ) (key : Text) :
    (∃ session p', ∃ t ∈ Trace.taken key,
      p.checkOut key = (.ok ⟨key, session, false⟩, t, p')) ∨
    ∃ e p', ∃ t ∈ Trace.refused key, p.checkOut key = (.error e, t, p') := by
  have hbuilt : [.build key] ∈ 1 + Trace.built key := Or.inr rfl
  have hreused : [] ∈ 1 + Trace.built key := Or.inl rfl
  have hanswered : ∀ error : Option PoolError,
      [.acquire key error] ∈ Trace.answered key error.isSome := fun error => ⟨error, rfl, rfl⟩
  rcases p.checkOut_cases key with ⟨session, slots, -, hc⟩ | ⟨slots, -, hc⟩ |
    ⟨session, slots, workshop, -, -, hc⟩ | ⟨e, slots, workshop, -, -, hc⟩
  · exact .inl ⟨session, _, _, Language.append_mem_mul hreused (hanswered none), hc⟩
  · exact .inr ⟨_, _, _, Language.append_mem_mul hreused (hanswered (some .exhausted)), hc⟩
  · exact .inl ⟨session, _, _, Language.append_mem_mul hbuilt (hanswered none), hc⟩
  · exact .inr ⟨e, _, _, Language.append_mem_mul hbuilt (hanswered (some e)), hc⟩

end SessionPool

namespace Call

theorem report_mem (e : GatewayError) : report e ∈ 1 + Trace.reporting := by
  unfold report
  split
  · exact Or.inr ⟨_, _, rfl⟩
  · exact Or.inl rfl

theorem conclude_mem (call : Call) (before : Draft) (ending : Except Halt Unit) (stage : Stage σ) :
    (call.conclude before ending stage).2.1 ∈ 1 + Trace.reporting := by
  rcases ending with (e | m) | _
  · exact report_mem e
  · exact Or.inl rfl
  · exact Or.inl rfl

/-- A call with a session ends in one release of it, behind at most one report. -/
theorem runWith_trace (call : Call) (draft : Draft) (guard : Guard σ) (trace : Trace)
    (pool : SessionPool σ) (shared : σ) :
    ∃ r ∈ 1 + Trace.reporting, ∃ u ∈ Trace.released guard.key,
      (call.runWith draft guard trace pool shared).trace =
        ((Service.serve call).runAt (.start guard.session draft trace shared)).2.trace ++ r ++
          u := by
  rw [runWith_eq]
  rcases (Service.serve call).runAt (.start guard.session draft trace shared) with ⟨ending, stage⟩
  exact ⟨_, call.conclude_mem draft ending stage, _, ⟨_, rfl⟩, rfl⟩

/-- A call brackets what it asks of its session. -/
theorem run_trace (call : Call) (draft : Draft) (pool : SessionPool σ) (shared : σ) :
    (call.run draft pool shared).trace ∈ Trace.refused call.key ∨
      (call.run draft pool shared).trace ∈ Trace.bracket call.key call.request.headers
        call.path.scope call.verb.operation? := by
  unfold run
  rcases pool.checkOut_trace call.key with ⟨session, p', t, ht, hp⟩ | ⟨e, p', t, ht, hp⟩
  · refine Or.inr ?_
    obtain ⟨r, hr, u, hu, hw⟩ := call.runWith_trace draft ⟨call.key, session, false⟩ t p' shared
    obtain ⟨v, hv, hs⟩ := (Service.serve_emits call).word (.start session draft t shared)
    rw [hs] at hw
    simp only [hp, hw, Stage.start]
    rw [List.append_assoc t v r]
    exact Language.append_mem_mul (Language.append_mem_mul ht (Language.append_mem_mul hv hr)) hu
  · refine Or.inl ?_
    simpa only [hp] using ht

end Call

/-! ## Requests -/

namespace Gateway

theorem runCall_trace (g : Gateway σ) (draft : Draft) (call : Call) :
    (g.runCall draft call).2.1 = (call.run draft g.pool g.shared).trace := rfl

/-- The trace of an admitted request is that of its call. -/
theorem handle_trace_of_admits {g : Gateway σ} {request : Request} {verb : Verb}
    {path : RequestPath} (h : g.Admits request verb path) (freshId : Bytes) :
    ∃ body, (g.handle freshId request).2.1 =
      ((g.callFor (request.identified freshId) verb path body).run
        (opening (request.identified freshId).toRequestHead) g.pool g.shared).trace := by
  obtain ⟨body, hb⟩ := route_of_admits ((admits_identified freshId).2 h)
  refine ⟨body, ?_⟩
  rw [handle_eq, hb, runCall_trace]

theorem inbound_identified (request : Request) (freshId : Bytes) :
    Trace.inbound (request.identified freshId).headers = Trace.inbound request.headers := by
  unfold Trace.inbound
  simp only [← Properties.ofHeaders?_eq_none_iff, Request.ofHeaders?_identified]
  rfl

/-- **Every request brackets what it asks of its session**, if it asks anything at all. -/
theorem trace_bracketed (g : Gateway σ) (freshId : Bytes) (request : Request) :
    ((g.handle freshId request).2.1 = [] ↔ ¬ ∃ verb path, g.Admits request verb path) ∧
    ∀ verb path, g.Admits request verb path →
      let key := Call.keyOf path (CrossOrigin.asksNodebug request.toRequestHead)
      (g.handle freshId request).2.1 ∈ Trace.refused key ∨
        (g.handle freshId request).2.1 ∈
          Trace.bracket key request.headers path.scope verb.operation? := by
  have hrun : ∀ verb path, g.Admits request verb path →
      let key := Call.keyOf path (CrossOrigin.asksNodebug request.toRequestHead)
      (g.handle freshId request).2.1 ∈ Trace.refused key ∨
        (g.handle freshId request).2.1 ∈
          Trace.bracket key request.headers path.scope verb.operation? := by
    intro verb path h
    obtain ⟨body, hb⟩ := route_of_admits ((admits_identified freshId).2 h)
    have ht := (g.callFor (request.identified freshId) verb path body).run_trace
      (opening (request.identified freshId).toRequestHead) g.pool g.shared
    rw [handle_eq, hb, runCall_trace]
    simpa only [callFor, Trace.bracket, inbound_identified, Request.asksNodebug_identified] using ht
  refine ⟨⟨fun hnil => ?_, fun h => handle_trace_of_not_admits h freshId⟩, hrun⟩
  rintro ⟨verb, path, h⟩
  rcases hrun verb path h with ht | ht <;> rw [hnil] at ht
  · exact Trace.nil_notMem_refused _ ht
  · exact Trace.nil_notMem_bracket _ _ _ _ ht

/-- A request to read, of a solution that has nothing to read: a session is taken for it, and given
    back. -/
theorem trace_bracketed_read :
    let g : Gateway Unit := .new {} ⟨⟨[.new "crm".toList]⟩, []⟩ none ()
    let request : Request := ⟨⟨"GET".toList, "/rest_ws/crm/orders".toList, .empty⟩, []⟩
    let path : RequestPath := ⟨"crm".toList, "orders".toList, []⟩
    g.Admits request .get path ∧
      (g.handle [] request).2.1 ∈
        Trace.bracket "crm".toList .empty "orders".toList (some .read) := by
  intro g request path
  have h : g.Admits request .get path :=
    { method := by decide
      path := ⟨"rest_ws/crm/orders".toList, "rest_ws/crm/orders".toList, by decide +kernel,
        by decide +kernel, by decide +kernel⟩
      body := nofun }
  have htaken : ∃ key, Event.acquire key none ∈ (g.handle [] request).2.1 := by decide +kernel
  obtain ⟨_, hacquire⟩ := htaken
  exact ⟨h, ((trace_bracketed g [] request).2 .get path h).resolve_left fun hrefused =>
    Trace.acquire_notMem_refused hrefused hacquire⟩

end Gateway

end SessionGateway
