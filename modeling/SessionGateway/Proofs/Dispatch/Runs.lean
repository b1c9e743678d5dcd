/-
  Runs of the work on a request — what each step yields, and the stage that it leaves.

  `Work.runAt` runs a computation from a stage.  Every step of a service has one equation
  here, which later proofs use in place of its definition:

  * `runAt_bind`: a halt skips what follows, and the stage stays as it was left;
  * `runAt_bringIn`: the properties of a request take the place of those of the session
    (`Stage.broughtIn`), unless they cannot be read;
  * `runAt_invoke`: an operation ends as its behaviour does (`Stage.ending`), and leaves what
    its behaviour leaves (`Stage.invoked`);
  * `runAt_verify`, `runAt_responseHeaders`: what stands between the authentication and the
    operation;
  * `operate_eq`, `options_eq`: a service is its inbound step and what follows it;
  * `runWith_eq`: a call is its service between the checkout and the release.
-/
import SessionGateway.Dispatch.Bracket

namespace SessionGateway

variable {σ α β : Type}

/-! ## Computations -/

namespace Work

/-- What a computation yields from a stage, and the stage that it leaves. -/
def runAt (w : Work σ α) (s : Stage σ) : Except Halt α × Stage σ := w.run.run s

theorem runAt_bind (w : Work σ α) (f : α → Work σ β) (s : Stage σ) :
    (w >>= f).runAt s = match w.runAt s with
      | (.ok a, s') => (f a).runAt s'
      | (.error e, s') => (.error e, s') := by
  show (match w.run.run s with
    | (r, s') => (ExceptT.bindCont f r).run s' : Except Halt β × Stage σ) = _
  simp only [runAt]
  rcases w.run.run s with ⟨_ | _, _⟩ <;> rfl

theorem runAt_bind_ok {w : Work σ α} {f : α → Work σ β} {s s' : Stage σ} {a : α}
    (h : w.runAt s = (.ok a, s')) : (w >>= f).runAt s = (f a).runAt s' := by
  rw [runAt_bind, h]

theorem runAt_bind_error {w : Work σ α} {f : α → Work σ β} {s s' : Stage σ} {e : Halt}
    (h : w.runAt s = (.error e, s')) : (w >>= f).runAt s = (.error e, s') := by
  rw [runAt_bind, h]

@[simp] theorem runAt_pure (a : α) (s : Stage σ) : (pure a : Work σ α).runAt s = (.ok a, s) := rfl

@[simp] theorem runAt_get (s : Stage σ) : (get : Work σ (Stage σ)).runAt s = (.ok s, s) := rfl

@[simp] theorem runAt_refuse (e : GatewayError) (s : Stage σ) :
    (refuse e : Work σ α).runAt s = (.error (.refused e), s) := rfl

@[simp] theorem runAt_draft (f : Draft → Draft) (s : Stage σ) :
    (draft f).runAt s = (.ok (), { s with draft := f s.draft }) := rfl

@[simp] theorem runAt_existence (scope : Text) (o : Operation) (s : Stage σ) :
    (existence scope o).runAt s = (.ok (s.session.solution.existence scope o), s) := rfl

theorem runAt_orRefuse (r : Except GatewayError α) (s : Stage σ) :
    (orRefuse r).runAt s = (r.mapError .refused, s) := by
  cases r <;> rfl

end Work

/-! ## Properties of the request -/

/-- The properties of a request can be read: it has no header for them, or the first one holds a
    JSON object. -/
def Properties.Readable (h : Headers) : Prop :=
  ∀ value, h.get? Properties.headerName = some value →
    ∃ ms, Json.parseBytes? value = some (.object ms)

theorem Properties.ofHeaders?_isSome_iff {h : Headers} : (ofHeaders? h).isSome ↔ Readable h := by
  unfold ofHeaders? Readable
  cases h.get? headerName with
  | none => simp
  | some value =>
    unfold ofHeaderValue?
    simp only [Option.some.injEq, forall_eq']
    constructor
    · intro hs
      split at hs
      · next ms hp => exact ⟨ms, hp⟩
      · simp at hs
    · rintro ⟨ms, hp⟩
      simp [hp]

theorem Properties.ofHeaders?_eq_none_iff {h : Headers} : ofHeaders? h = none ↔ ¬ Readable h := by
  rw [← ofHeaders?_isSome_iff, Option.not_isSome_iff_eq_none]

namespace Stage

/-- The stage on which a call starts. -/
def start (session : Session σ) (draft : Draft) (trace : Trace) (shared : σ) : Stage σ :=
  ⟨session, .none, shared, draft, trace⟩

/-- The stage whose session has the given properties. -/
def withProperties (s : Stage σ) (p : Properties) : Stage σ :=
  { s with session := { s.session with properties := p } }

/-- The stage after the properties of a request were brought in. -/
def broughtIn (s : Stage σ) (h : Headers) : Stage σ :=
  match Properties.ofHeaders? h with
  | some p => { s.withProperties p with trace := s.trace ++ [.setProperties p] }
  | none => s

/-- **Readable properties replace those of the session**, whatever these were. -/
theorem broughtIn_withProperties {h : Headers} (hr : Properties.Readable h) (s : Stage σ)
    (p q : Properties) : (s.withProperties p).broughtIn h = (s.withProperties q).broughtIn h := by
  obtain ⟨r, hr⟩ := Option.isSome_iff_exists.1 (Properties.ofHeaders?_isSome_iff.2 hr)
  simp only [broughtIn, hr, withProperties]

/-- Properties that cannot be read leave the session as it is. -/
theorem broughtIn_of_not_readable {h : Headers} (hr : ¬ Properties.Readable h) (s : Stage σ) :
    s.broughtIn h = s := by
  rw [broughtIn, Properties.ofHeaders?_eq_none_iff.2 hr]

@[simp] theorem broughtIn_solution (s : Stage σ) (h : Headers) :
    (s.broughtIn h).session.solution = s.session.solution := by
  unfold broughtIn; split <;> rfl

@[simp] theorem broughtIn_overrides (s : Stage σ) (h : Headers) :
    (s.broughtIn h).overrides = s.overrides := by
  unfold broughtIn; split <;> rfl

@[simp] theorem broughtIn_shared (s : Stage σ) (h : Headers) :
    (s.broughtIn h).shared = s.shared := by
  unfold broughtIn; split <;> rfl

end Stage

theorem Service.runAt_bringIn (h : Headers) (s : Stage σ) :
    (bringIn h).runAt s = (.ok (), s.broughtIn h) := by
  unfold bringIn Stage.broughtIn
  cases Properties.ofHeaders? h <;> rfl

/-! ## Operations -/

/-- What an ending is to the work: a crash halts it. -/
def Ending.toExcept : Ending → Except Halt (Except InvocationError Payload)
  | returned result => .ok (.ok result)
  | failed error => .ok (.error error)
  | crashed message => .error (.crashed message)

namespace Stage
variable (s : Stage σ) (scope : Text) (o : Operation) (request : RequestHead) (args : List Payload)

/-- How an operation ends that is run now. -/
def ending : Ending := (s.session.invoke scope o request args s.overrides s.shared).1

/-- The stage after an operation was run. -/
def invoked : Stage σ :=
  let (_, session, overrides, shared) :=
    s.session.invoke scope o request args s.overrides s.shared
  { s with session, overrides, shared,
           trace := s.trace ++ [.invoke scope o args s.session.properties] }

@[simp] theorem invoked_trace : (s.invoked scope o request args).trace =
    s.trace ++ [.invoke scope o args s.session.properties] := rfl

@[simp] theorem invoked_solution :
    (s.invoked scope o request args).session.solution = s.session.solution := by
  simp only [invoked, Session.invoke]
  cases s.session.solution.behaviour? scope o <;> rfl

variable {s scope o}

/-- An operation that the solution has ends as its behaviour does. -/
theorem ending_of_behaviour {b : Behaviour σ} (h : s.session.solution.behaviour? scope o = some b) :
    s.ending scope o request args =
      (b request args ⟨s.session.properties, s.overrides, s.shared⟩).1 := by
  simp only [ending, Session.invoke, h]

end Stage

theorem Work.runAt_invoke (scope : Text) (o : Operation) (request : RequestHead)
    (args : List Payload) (s : Stage σ) :
    (invoke scope o request args).runAt s =
      ((s.ending scope o request args).toExcept, s.invoked scope o request args) := by
  unfold Work.invoke
  simp only [runAt_bind, runAt_get]
  show (Work.runAt (match (s.session.invoke scope o request args s.overrides s.shared).1 with
    | .returned result => _ | .failed error => _ | .crashed message => _) _) = _
  unfold Stage.ending
  cases (s.session.invoke scope o request args s.overrides s.shared).1 <;> rfl

/-! ## Services -/

namespace Service

/-- An operation that the solution does not have is refused on the spot. -/
theorem runAt_verify_of_not_found {scope : Text} {o : Operation} {s : Stage σ}
    (h : s.session.solution.existence scope o ≠ .found) :
    ∃ e, (verify scope o).runAt s = (.error (.refused e), s) := by
  have hv : (verify scope o).runAt s = _ := Work.runAt_bind_ok (Work.runAt_existence _ _ s)
  rw [hv]
  cases hx : s.session.solution.existence scope o with
  | found => exact absurd hx h
  | noSolution => exact ⟨_, rfl⟩
  | scopeNotFound => exact ⟨_, rfl⟩
  | notFound => exact ⟨_, rfl⟩

/-- What an operation for response headers does to the response. -/
theorem runAt_responseHeaders (scope : Text) (request : RequestHead) (s : Stage σ) :
    (responseHeaders scope request).runAt s =
      if s.session.solution.existence scope .responseHeaders = .found then
        match s.ending scope .responseHeaders request [] with
        | .returned result => (.ok (), { s.invoked scope .responseHeaders request [] with
            draft := addHeaders s.draft (itemsOf result.toJson) })
        | .failed _ => (.ok (), s.invoked scope .responseHeaders request [])
        | .crashed m => (.error (.crashed m), s.invoked scope .responseHeaders request [])
      else (.ok (), s) := by
  have hr : (responseHeaders scope request).runAt s = _ :=
    Work.runAt_bind_ok (Work.runAt_existence scope .responseHeaders s)
  rw [hr]
  split
  · rw [Work.runAt_bind, Work.runAt_invoke]
    cases s.ending scope .responseHeaders request [] <;> rfl
  · rfl

/-- What a call does once it is let in, with the value that the authentication gave. -/
def proceed (call : Call) (o : Operation) (extra : Option Payload) : Work σ Unit := do
  verify call.path.scope o
  responseHeaders call.path.scope call.request
  let args := Arguments.build (call.body.map (·.payload)) call.path.arguments call.request.query?
    extra
  match ← Work.invoke call.path.scope o call.request args with
  | .error cause => Work.refuse (.operationFailed cause cause.isUserScript)
  | .ok result =>
    takeOut call
    respond call o result

/-- Lets a call in, with the value that the authentication gave, or refuses it. -/
def letIn (call : Call) : Work σ (Option Payload) := do
  let decision ← Authentication.decide call.auth call.path.sessionKey call.path.scope call.request
  Work.orRefuse decision.toExcept

theorem operate_eq (call : Call) (o : Operation) :
    (operate call o : Work σ Unit) =
      bringIn call.request.headers >>= fun _ => letIn call >>= proceed call o := by
  simp only [letIn, bind_assoc]
  rfl

/-- What an OPTIONS request does after its inbound step. -/
def describe (call : Call) : Work σ Unit := do
  let solution := (← get).session.solution
  let headers := allowedHeaders (call.request.headers.text? HeaderName.requestHeaders)
  Work.draft fun d =>
    ((d.setHeader HeaderName.allow (allowed solution call.path.scope)).setHeader
      HeaderName.allowHeaders headers).setHeader HeaderName.exposeHeaders
        (headers ++ ", ".toList ++ HeaderName.nodebug ++ ", ".toList ++ Properties.headerName)
  takeOut call

theorem options_eq (call : Call) :
    (options call : Work σ Unit) = bringIn call.request.headers >>= fun _ => describe call := rfl

end Service

theorem Call.runWith_eq (call : Call) (draft : Draft) (guard : Guard σ) (trace : Trace)
    (pool : SessionPool σ) (shared : σ) :
    call.runWith draft guard trace pool shared =
      let (ending, stage) := (Service.serve call).runAt (.start guard.session draft trace shared)
      let (response, reported, reload) := call.conclude draft ending stage
      let (released, pool) := pool.checkIn { guard with session := stage.session, reload }
      ⟨response, stage.trace ++ reported ++ released, pool, stage.shared⟩ := rfl

end SessionGateway
