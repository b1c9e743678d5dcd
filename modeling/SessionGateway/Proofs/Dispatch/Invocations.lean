/-
  Invocations — how the operations of a request ended, and what the request makes of it.

  A trace shows which operations were run, with which arguments and on which properties.  That is
  enough to run them again (`Trace.replay`): each one finds the overrides and the shared state that
  the one before it left.  A computation is explained by its trace (`Work.Accounts`) if the replay
  ends where the computation does, and its result follows from the endings (`Explains`): it breaks
  off exactly if an operation crashed, it fails with the error of the target operation exactly if
  that one failed, and no other error speaks against the session.

  * `Accounts.bind`: two explained computations behind each other are explained;
  * `accounts_run`: the target operation, and what is done with its result;
  * `serve_accounts`: every service is explained by its trace;
  * `Call.run_outcome`: a call that gets a session works with it, reports and gives it back, and
    only the work is replayed (`Trace.replay_bracket`).
-/
import SessionGateway.Proofs.Dispatch.Traces

namespace SessionGateway

variable {σ α β : Type}

/-! ## Replaying a trace -/

/-- One run of an operation: how it ended, and the properties that it left. -/
structure Invocation where
  operation : Operation
  ending : Ending
  after : Properties

namespace Trace

/-- Runs the operations of a trace again, and sets the properties that were set. -/
def replay (solution : Solution σ) (request : RequestHead) (desk : Desk σ) :
    Trace → List Invocation × Desk σ
  | [] => ([], desk)
  | .setProperties p :: t => replay solution request { desk with properties := p } t
  | .invoke scope o args before :: t =>
    let (ending, session, overrides, shared) :=
      Session.invoke ⟨solution, before⟩ scope o request args desk.overrides desk.shared
    let (runs, desk) := replay solution request ⟨session.properties, overrides, shared⟩ t
    (⟨o, ending, session.properties⟩ :: runs, desk)
  | _ :: t => replay solution request desk t

variable {solution : Solution σ} {request : RequestHead}

theorem replay_append (desk : Desk σ) (t u : Trace) :
    replay solution request desk (t ++ u) =
      let (runs, desk) := replay solution request desk t
      let (more, desk) := replay solution request desk u
      (runs ++ more, desk) := by
  induction t generalizing desk with
  | nil => rfl
  | cons e t ih =>
    cases e with
    | setProperties p => exact ih { desk with properties := p }
    | invoke scope o args before =>
      simp only [List.cons_append, replay, ih]
    | build => exact ih desk
    | acquire => exact ih desk
    | reportError => exact ih desk
    | release => exact ih desk

end Trace

/-- What the next operation of a stage may read and change. -/
def Stage.desk (s : Stage σ) : Desk σ := ⟨s.session.properties, s.overrides, s.shared⟩

/-! ## Results and endings -/

/-- An error that no operation of the request raised. -/
def GatewayError.Benign : GatewayError → Prop
  | operationFailed _ _ | internal _ => False
  | _ => True

/-- The failure of an operation. -/
def GatewayError.ofFailure (cause : InvocationError) : GatewayError :=
  .operationFailed cause cause.isUserScript

/-- An operation crashed. -/
def Crashes (runs : List Invocation) : Prop := ∃ i ∈ runs, ∃ m, i.ending = .crashed m

/-- The target operation failed. -/
def Fails (target : Option Operation) (runs : List Invocation) (cause : InvocationError) : Prop :=
  ∃ i ∈ runs, some i.operation = target ∧ i.ending = .failed cause

/-- The target operation, if there is one, was run and returned a result. -/
def Returns (target : Option Operation) (runs : List Invocation) : Prop :=
  ∀ o, target = some o → ∃ i ∈ runs, i.operation = o ∧ ∃ result, i.ending = .returned result

instance (e : Ending) : Decidable (∃ result, e = .returned result) :=
  match e with
  | .returned result => .isTrue ⟨result, rfl⟩
  | .failed _ => .isFalse nofun
  | .crashed _ => .isFalse nofun

instance (target : Option Operation) (runs : List Invocation) : Decidable (Returns target runs) :=
  match target with
  | none => .isTrue nofun
  | some o => decidable_of_iff
      (∃ i ∈ runs, i.operation = o ∧ ∃ result, i.ending = .returned result)
      ⟨fun h _ ho => Option.some.inj ho ▸ h, fun h => h o rfl⟩

/-- A result follows from how the operations ended. -/
structure Explains (target : Option Operation) (runs : List Invocation) (r : Except Halt α) :
    Prop where
  crashed : (∃ m, r = .error (.crashed m)) ↔ Crashes runs
  failed : ∀ cause, r = .error (.refused (.ofFailure cause)) ↔ Fails target runs cause
  refused : ∀ e, r = .error (.refused e) → e.Benign ∨ ∃ cause, e = .ofFailure cause

namespace Explains
variable {target : Option Operation} {runs more : List Invocation}

/-- No operation, and no failure. -/
theorem ok_nil (target : Option Operation) (a : α) : Explains target [] (.ok a) :=
  ⟨by simp [Crashes], by simp [Fails], nofun⟩

/-- No operation, and an error that has nothing to do with one. -/
theorem benign_nil (target : Option Operation) {e : GatewayError} (h : e.Benign) :
    Explains target [] (.error (.refused e) : Except Halt α) := by
  refine ⟨by simp [Crashes], fun cause => ⟨fun he => ?_, by simp [Fails]⟩, fun e' he => ?_⟩
  · cases he
    cases h
  · cases he
    exact .inl h

theorem congr_error {halt : Halt} (h : Explains target runs (.error halt : Except Halt α)) :
    Explains target runs (.error halt : Except Halt β) := by
  obtain ⟨hc, hf, hr⟩ := h
  simp only [Except.error.injEq] at hc hf hr
  exact ⟨by simpa only [Except.error.injEq] using hc, by simpa only [Except.error.injEq] using hf,
    by simpa only [Except.error.injEq] using hr⟩

/-- Operations that let the computation go on, and others behind them. -/
theorem append {a : α} {r : Except Halt β} (h : Explains target runs (.ok a))
    (h' : Explains target more r) : Explains target (runs ++ more) r := by
  have hcrash : ¬ Crashes runs := by
    rw [← h.crashed]
    simp
  have hfail : ∀ cause, ¬ Fails target runs cause := by
    intro cause
    rw [← h.failed]
    simp
  have hmem : ∀ P : Invocation → Prop, (¬ ∃ i ∈ runs, P i) →
      ((∃ i ∈ runs ++ more, P i) ↔ ∃ i ∈ more, P i) := by
    intro P hP
    simp only [List.mem_append, or_and_right, exists_or]
    exact or_iff_right hP
  exact ⟨h'.crashed.trans (hmem _ hcrash).symm,
    fun cause => (h'.failed cause).trans (hmem _ (hfail cause)).symm, h'.refused⟩

end Explains

/-! ## Computations -/

namespace Work

/-- A computation is explained by what it adds to the trace. -/
structure Accounts (w : Work σ α) (request : RequestHead) (target : Option Operation) : Prop where
  solution : ∀ s, (w.runAt s).2.session.solution = s.session.solution
  replay : ∀ s, ∃ t, (w.runAt s).2.trace = s.trace ++ t ∧
    (Trace.replay s.session.solution request s.desk t).2 = (w.runAt s).2.desk ∧
    Explains target (Trace.replay s.session.solution request s.desk t).1 (w.runAt s).1

variable {w : Work σ α} {request : RequestHead} {target : Option Operation}

namespace Accounts

/-- A computation that runs no operation and leaves the session alone. -/
theorem still
    (hs : ∀ s, (w.runAt s).2.session = s.session ∧ (w.runAt s).2.desk = s.desk ∧
      (w.runAt s).2.trace = s.trace)
    (hr : ∀ s, (∃ a, (w.runAt s).1 = .ok a) ∨ ∃ e, (w.runAt s).1 = .error (.refused e) ∧ e.Benign) :
    w.Accounts request target where
  solution s := by rw [(hs s).1]
  replay s := by
    refine ⟨[], by rw [(hs s).2.2, List.append_nil], (hs s).2.1.symm, ?_⟩
    rcases hr s with ⟨a, ha⟩ | ⟨e, he, hb⟩
    · rw [ha]
      exact .ok_nil target a
    · rw [he]
      exact .benign_nil target hb

/-- **One computation behind another**, which need not be reached. -/
theorem bind {f : α → Work σ β} (hw : w.Accounts request target)
    (hf : ∀ a, (f a).Accounts request target) : (w >>= f).Accounts request target where
  solution s := by
    have hs := hw.solution s
    rw [runAt_bind]
    rcases hr : w.runAt s with ⟨_ | a, s'⟩ <;> rw [hr] at hs
    · exact hs
    · exact ((hf a).solution s').trans hs
  replay s := by
    have hs := hw.solution s
    obtain ⟨t, ht, hd, he⟩ := hw.replay s
    rw [runAt_bind]
    rcases hr : w.runAt s with ⟨halt | a, s'⟩ <;> rw [hr] at hs ht hd he
    · exact ⟨t, ht, hd, he.congr_error⟩
    · obtain ⟨u, hu, hd', he'⟩ := (hf a).replay s'
      refine ⟨t ++ u, by rw [hu, ht, List.append_assoc], ?_⟩
      rw [hs] at hd' he'
      simp only [Trace.replay_append, hd]
      exact ⟨hd', he.append he'⟩

end Accounts

theorem accounts_pure (a : α) : (pure a : Work σ α).Accounts request target :=
  .still (fun _ => ⟨rfl, rfl, rfl⟩) fun _ => .inl ⟨a, rfl⟩

theorem accounts_get : (get : Work σ (Stage σ)).Accounts request target :=
  .still (fun _ => ⟨rfl, rfl, rfl⟩) fun s => .inl ⟨s, rfl⟩

theorem accounts_draft (f : Draft → Draft) : (draft f : Work σ Unit).Accounts request target :=
  .still (fun _ => ⟨rfl, rfl, rfl⟩) fun _ => .inl ⟨(), rfl⟩

theorem accounts_existence (scope : Text) (o : Operation) :
    (existence scope o : Work σ Existence).Accounts request target :=
  .still (fun _ => ⟨rfl, rfl, rfl⟩) fun _ => .inl ⟨_, rfl⟩

theorem accounts_refuse {e : GatewayError} (h : e.Benign) :
    (refuse e : Work σ α).Accounts request target :=
  .still (fun _ => ⟨rfl, rfl, rfl⟩) fun _ => .inr ⟨e, rfl, h⟩

/-- The one operation that a step runs. -/
theorem replay_invoke (s : Stage σ) (scope : Text) (o : Operation) (args : List Payload) :
    Trace.replay s.session.solution request s.desk [.invoke scope o args s.session.properties] =
      ([⟨o, s.ending scope o request args, (s.invoked scope o request args).session.properties⟩],
        (s.invoked scope o request args).desk) := rfl

/-- An operation that is not the target: the computation goes on unless it crashes. -/
theorem accounts_invoke {o : Operation} (ho : some o ≠ target) (scope : Text)
    (args : List Payload) :
    (invoke scope o request args : Work σ _).Accounts request target where
  solution s := by rw [runAt_invoke, Stage.invoked_solution]
  replay s := by
    refine ⟨[.invoke scope o args s.session.properties], by rw [runAt_invoke]; rfl, ?_⟩
    rw [runAt_invoke, replay_invoke]
    refine ⟨rfl, ?_⟩
    cases s.ending scope o request args <;>
      exact ⟨by simp [Ending.toExcept, Crashes], by simp [Ending.toExcept, Fails, ho], nofun⟩

/-- **The target operation**: its failure is that of the computation, and its result is worked
    on. -/
theorem accounts_run {o : Operation} (scope : Text) (args : List Payload)
    {f : Payload → Work σ β} (hf : ∀ result, (f result).Accounts request (some o)) :
    (do
      match ← invoke scope o request args with
      | .error cause => refuse (.ofFailure cause)
      | .ok result => f result : Work σ β).Accounts request (some o) := by
  have hrun : ∀ s, ((do
      match ← invoke scope o request args with
      | .error cause => refuse (.ofFailure cause)
      | .ok result => f result : Work σ β)).runAt s =
        match s.ending scope o request args with
        | .returned result => (f result).runAt (s.invoked scope o request args)
        | .failed cause => (.error (.refused (.ofFailure cause)), s.invoked scope o request args)
        | .crashed m => (.error (.crashed m), s.invoked scope o request args) := by
    intro s
    rw [runAt_bind, runAt_invoke]
    cases s.ending scope o request args <;> rfl
  constructor
  · intro s
    rw [hrun]
    split
    · rw [(hf _).solution, Stage.invoked_solution]
    · rw [Stage.invoked_solution]
    · rw [Stage.invoked_solution]
  · intro s
    rw [hrun]
    cases he : s.ending scope o request args with
    | returned result =>
      obtain ⟨u, hu, hd, hx⟩ := (hf result).replay (s.invoked scope o request args)
      rw [Stage.invoked_solution] at hd hx
      refine ⟨[.invoke scope o args s.session.properties] ++ u, ?_, ?_⟩
      · rw [hu, Stage.invoked_trace, List.append_assoc]
      · rw [Trace.replay_append, replay_invoke, he]
        have hok : Explains (some o)
            [⟨o, .returned result, (s.invoked scope o request args).session.properties⟩]
            (.ok () : Except Halt Unit) := ⟨by simp [Crashes], by simp [Fails], nofun⟩
        exact ⟨hd, hok.append hx⟩
    | failed cause =>
      refine ⟨[.invoke scope o args s.session.properties], rfl, ?_⟩
      rw [replay_invoke, he]
      refine ⟨rfl, by simp [Crashes], fun cause' => ?_, ?_⟩
      · simp only [Fails, Except.error.injEq, Halt.refused.injEq, GatewayError.ofFailure,
          GatewayError.operationFailed.injEq, List.mem_singleton, exists_eq_left, true_and,
          Ending.failed.injEq, and_iff_left_iff_imp]
        rintro rfl
        rfl
      · rintro e ⟨⟩
        exact .inr ⟨cause, rfl⟩
    | crashed m =>
      refine ⟨[.invoke scope o args s.session.properties], rfl, ?_⟩
      rw [replay_invoke, he]
      exact ⟨rfl, by simp [Crashes], by simp [Fails], nofun⟩

end Work

/-! ## Services -/

namespace Service

open Work

variable {target : Option Operation} {request : RequestHead}

theorem accounts_bringIn (h : Headers) : (bringIn h : Work σ Unit).Accounts request target where
  solution s := by rw [runAt_bringIn, Stage.broughtIn_solution]
  replay s := by
    rw [runAt_bringIn]
    unfold Stage.broughtIn
    cases Properties.ofHeaders? h with
    | some p => exact ⟨[.setProperties p], rfl, rfl, .ok_nil target ()⟩
    | none => exact ⟨[], (List.append_nil _).symm, rfl, .ok_nil target ()⟩

theorem accounts_takeOut (call : Call) : (takeOut call : Work σ Unit).Accounts request target :=
  accounts_get.bind fun _ => accounts_draft _

theorem accounts_describe (call : Call) : (describe call : Work σ Unit).Accounts request target :=
  accounts_get.bind fun _ => (accounts_draft _).bind fun _ => accounts_takeOut call

theorem accounts_letIn (call : Call) (ht : some .authenticate ≠ target) :
    (letIn call : Work σ _).Accounts call.request target := by
  refine Accounts.bind ?_ fun decision => ?_
  · unfold Authentication.decide
    refine (accounts_existence _ _).bind fun x => ?_
    split
    · unfold Authentication.byOperation
      split
      · exact accounts_pure _
      · exact (accounts_invoke ht _ _).bind fun r => accounts_pure _
    · exact accounts_pure _
  · cases decision with
    | allowed extra => exact accounts_pure _
    | unauthenticated realm => exact accounts_refuse trivial
    | unauthorized reason => exact accounts_refuse trivial

theorem accounts_verify (scope : Text) (o : Operation) :
    (verify scope o : Work σ Unit).Accounts request target := by
  refine (accounts_existence scope o).bind fun x => ?_
  cases x with
  | found => exact accounts_pure ()
  | noSolution => exact accounts_get.bind fun _ => accounts_refuse trivial
  | scopeNotFound => exact accounts_refuse trivial
  | notFound => exact accounts_refuse trivial

theorem accounts_responseHeaders (scope : Text) (ht : some .responseHeaders ≠ target) :
    (responseHeaders scope request : Work σ Unit).Accounts request target := by
  refine (accounts_existence _ _).bind fun x => ?_
  split
  · refine (accounts_invoke ht _ _).bind fun r => ?_
    cases r with
    | ok result => exact accounts_draft _
    | error e => exact accounts_pure ()
  · exact accounts_pure ()

theorem accounts_respond (call : Call) (o : Operation) (result : Payload) :
    (respond call o result : Work σ Unit).Accounts request target := by
  have hsend : (send call result : Work σ Unit).Accounts request target := by
    refine accounts_get.bind fun s => ?_
    cases encode call s.overrides result with
    | ok e => exact accounts_draft _
    | error e => exact accounts_refuse trivial
  unfold respond
  split
  · exact accounts_draft _
  · refine (accounts_draft _).bind fun _ => ?_
    split
    · exact accounts_pure ()
    · exact hsend

theorem accounts_proceed (call : Call) {o : Operation} (ho : some .responseHeaders ≠ some o)
    (extra : Option Payload) :
    (proceed call o extra : Work σ Unit).Accounts call.request (some o) :=
  (accounts_verify _ _).bind fun _ => (accounts_responseHeaders _ ho).bind fun _ =>
    accounts_run _ _ fun result => (accounts_takeOut call).bind fun _ =>
      accounts_respond call o result

/-- The operation of a verb is none of the two that serve the gateway itself. -/
theorem operation_of_verb {verb : Verb} {o : Operation} (h : verb.operation? = some o) :
    o ≠ .authenticate ∧ o ≠ .responseHeaders := by
  cases verb <;> cases h <;> exact ⟨nofun, nofun⟩

/-- **Every service is explained by its trace.** -/
theorem serve_accounts (call : Call) :
    (serve call : Work σ Unit).Accounts call.request call.verb.operation? := by
  unfold serve
  cases hv : call.verb.operation? with
  | none =>
    show (options call).Accounts _ _
    rw [options_eq]
    exact (accounts_bringIn _).bind fun _ => accounts_describe call
  | some o =>
    obtain ⟨ha, hr⟩ := operation_of_verb hv
    show (operate call o).Accounts _ _
    rw [operate_eq]
    exact (accounts_bringIn _).bind fun _ =>
      (accounts_letIn call fun h => ha (Option.some.inj h).symm).bind fun extra =>
        accounts_proceed call (fun h => hr (Option.some.inj h).symm) extra

end Service

/-! ## The events of a call -/

/-- An event of the work on a request: properties are set, or an operation is run. -/
inductive Event.IsWork : Event → Prop where
  | setProperties {p} : IsWork (.setProperties p)
  | invoke {scope o args before} : IsWork (.invoke scope o args before)

/-- An event that a session is taken out by. -/
inductive Event.IsTaking (key : Text) : Event → Prop where
  | build : IsTaking key (.build key)
  | acquire {error} : IsTaking key (.acquire key error)

namespace Trace

theorem isTaking_of_mem {key : Text} {failed : Bool} {t : Trace}
    (ht : t ∈ (1 + built key) * answered key failed) : ∀ e ∈ t, e.IsTaking key := by
  obtain ⟨a, ha, b, ⟨error, -, rfl⟩, rfl⟩ := Language.mem_mul.1 ht
  rw [List.forall_mem_append, List.forall_mem_singleton]
  refine ⟨?_, .acquire⟩
  rcases ha with rfl | rfl
  · nofun
  · exact List.forall_mem_singleton.2 .build

theorem isWork_invocation {scope : Text} {o : Operation} {t : Trace}
    (ht : t ∈ 1 + invocation scope o) : ∀ e ∈ t, e.IsWork := by
  rcases ht with rfl | ⟨args, before, rfl⟩
  · nofun
  · exact List.forall_mem_singleton.2 .invoke

theorem isWork_of_mem {h : Headers} {scope : Text} {o : Option Operation} {t : Trace}
    (ht : t ∈ inbound h * operations scope o) : ∀ e ∈ t, e.IsWork := by
  obtain ⟨a, ha, b, hb, rfl⟩ := Language.mem_mul.1 ht
  rw [List.forall_mem_append]
  constructor
  · rcases ha with ⟨p, -, rfl⟩ | ⟨-, rfl⟩
    · exact List.forall_mem_singleton.2 .setProperties
    · nofun
  · cases o with
    | none =>
      cases hb
      nofun
    | some o =>
      obtain ⟨c, hc, d, hd, rfl⟩ := Language.mem_mul.1 hb
      obtain ⟨x, hx, y, hy, rfl⟩ := Language.mem_mul.1 hd
      rw [List.forall_mem_append, List.forall_mem_append]
      exact ⟨isWork_invocation hc, isWork_invocation hx, isWork_invocation hy⟩

variable {solution : Solution σ} {request : RequestHead}

/-- Events that ask nothing of a session are not replayed. -/
theorem replay_eq_nil {t : Trace} (ht : ∀ e ∈ t, ¬ e.IsWork) (desk : Desk σ) :
    replay solution request desk t = ([], desk) := by
  induction t with
  | nil => rfl
  | cons e t ih =>
    rw [List.forall_mem_cons] at ht
    cases e with
    | setProperties p => exact absurd .setProperties ht.1
    | invoke => exact absurd .invoke ht.1
    | build => exact ih ht.2
    | acquire => exact ih ht.2
    | reportError => exact ih ht.2
    | release => exact ih ht.2

/-- What is behind the work of a call is not work. -/
theorem not_isWork_of_mem {t : Trace} (ht : t ∈ 1 + reporting) : ∀ e ∈ t, ¬ e.IsWork := by
  rcases ht with rfl | ⟨context, message, rfl⟩
  · nofun
  · exact List.forall_mem_singleton.2 nofun

theorem acquire_notMem_reporting {key : Text} {error : Option PoolError} {t : Trace}
    (ht : t ∈ 1 + reporting) : Event.acquire key error ∉ t := by
  rcases ht with rfl | ⟨context, message, rfl⟩
  · exact List.not_mem_nil
  · exact fun hm => nomatch List.mem_singleton.1 hm

/-- Only the work of a call is replayed. -/
theorem replay_bracket {key : Text} {t reports : Trace} (ht : t ∈ taken key)
    (hr : reports ∈ 1 + reporting) (desk : Desk σ) {work : Trace} {reload : Bool} :
    replay solution request desk (t ++ work ++ reports ++ [.release key reload]) =
      replay solution request desk work := by
  have htaken : ∀ e ∈ t, ¬ e.IsWork := fun e he hw => by
    cases isTaking_of_mem ht e he <;> cases hw
  have hrelease : ∀ e ∈ [Event.release key reload], ¬ e.IsWork :=
    List.forall_mem_singleton.2 nofun
  simp only [replay_append, replay_eq_nil htaken, replay_eq_nil (not_isWork_of_mem hr),
    replay_eq_nil hrelease, List.nil_append, List.append_nil]

end Trace

/-- **A call that gets a session** has one that runs the solution of its key; it works with it,
    reports, and gives it back. -/
theorem Call.run_outcome {registry : Registry σ} (call : Call) (draft : Draft)
    {pool : SessionPool σ} (h : pool.Faithful registry) (shared : σ) {key : Text}
    (hm : Event.acquire key none ∈ (call.run draft pool shared).trace) :
    ∃ session, ∃ t ∈ Trace.taken call.key, ∃ work ∈ Trace.inbound call.request.headers *
        Trace.operations call.path.scope call.verb.operation?,
      let run := (Service.serve call).runAt (.start session draft t shared)
      let response := call.conclude draft run.1 run.2
      key = call.key ∧ registry.get? call.key = some session.solution ∧
      run.2.trace = t ++ work ∧
      (call.run draft pool shared).trace =
        t ++ work ++ response.2.1 ++ [.release call.key response.2.2] ∧
      (call.run draft pool shared).draft = response.1 := by
  have hg := (h.checkOut call.key).2
  unfold run at hm ⊢
  rcases pool.checkOut_trace call.key with ⟨session, p', t, ht, hp⟩ | ⟨e, p', t, ht, hp⟩
  · obtain ⟨-, hsolution⟩ := hg ⟨call.key, session, false⟩ (by rw [hp])
    obtain ⟨work, hword, hwork⟩ :=
      (Service.serve_emits call).word (.start session draft t shared)
    simp only [hp, runWith_eq] at hm ⊢
    refine ⟨session, t, ht, work, hword, ?_, hsolution, hwork, ?_, rfl⟩
    · rcases hr : (Service.serve call).runAt (.start session draft t shared) with ⟨ending, stage⟩
      rw [hr] at hm hwork
      simp only [show stage.trace = t ++ work from hwork, List.mem_append] at hm
      rcases hm with ((hm | hm) | hm) | hm
      · cases Trace.isTaking_of_mem ht _ hm
        rfl
      · cases Trace.isWork_of_mem hword _ hm
      · exact absurd hm (Trace.acquire_notMem_reporting (call.conclude_mem draft ending stage))
      · cases List.mem_singleton.1 hm
    · rw [show t ++ work = _ from hwork.symm]
      rfl
  · simp only [hp] at hm
    exact absurd hm (Trace.acquire_notMem_refused ht)

end SessionGateway
