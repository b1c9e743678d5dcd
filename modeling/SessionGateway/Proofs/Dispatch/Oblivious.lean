/-
  Obliviousness — nothing that a service does depends on what was traced before it.

  A computation is oblivious (`Work.Oblivious`) if from two stages that differ in their traces
  only it yields the same, and leaves stages that differ in their traces only.  It may read the
  stage as long as it goes on in the same way for every trace (`Oblivious.get_bind`).

  * `serve_oblivious`: every service is oblivious;
  * `runWith_response`: a call gives the same response, and leaves the same shared state, with
    any session of one solution, behind any trace and out of any pool, if its properties can be
    read.
-/
import SessionGateway.Proofs.Session.Isolation

namespace SessionGateway

variable {σ α β : Type}

/-- The stage with another trace. -/
def Stage.traced (s : Stage σ) (t : Trace) : Stage σ := { s with trace := t }

namespace Work

/-- What a computation does besides writing to the trace does not depend on the trace. -/
def Oblivious (w : Work σ α) : Prop :=
  ∀ s t, ∃ u, w.runAt (s.traced t) = ((w.runAt s).1, (w.runAt s).2.traced u)

namespace Oblivious
variable {w : Work σ α}

/-- One oblivious computation behind another. -/
theorem bind {f : α → Work σ β} (hw : w.Oblivious) (hf : ∀ a, (f a).Oblivious) :
    (w >>= f).Oblivious := by
  intro s t
  obtain ⟨u, hu⟩ := hw s t
  rw [runAt_bind, runAt_bind, hu]
  rcases w.runAt s with ⟨e | a, s'⟩
  · exact ⟨u, rfl⟩
  · exact hf a s' u

/-- What reads the stage must not read the trace. -/
theorem get_bind {f : Stage σ → Work σ α} (hf : ∀ s, (f s).Oblivious)
    (ht : ∀ s t, f (s.traced t) = f s) : (get >>= f).Oblivious := by
  intro s t
  obtain ⟨u, hu⟩ := hf s s t
  refine ⟨u, ?_⟩
  rw [runAt_bind_ok (runAt_get _), runAt_bind_ok (runAt_get _), ht, hu]

theorem pure (a : α) : (pure a : Work σ α).Oblivious := fun _ t => ⟨t, rfl⟩

theorem refuse (e : GatewayError) : (refuse e : Work σ α).Oblivious := fun _ t => ⟨t, rfl⟩

theorem draft (f : Draft → Draft) : (draft f : Work σ Unit).Oblivious := fun _ t => ⟨t, rfl⟩

theorem existence (scope : Text) (o : Operation) :
    (existence scope o : Work σ Existence).Oblivious := fun _ t => ⟨t, rfl⟩

theorem orRefuse (r : Except GatewayError α) : (orRefuse r : Work σ α).Oblivious := by
  cases r with
  | ok a => exact pure a
  | error e => exact refuse e

theorem invoke (scope : Text) (o : Operation) (request : RequestHead) (args : List Payload) :
    (invoke scope o request args : Work σ _).Oblivious := by
  intro s t
  rw [runAt_invoke, runAt_invoke]
  exact ⟨_, rfl⟩

end Oblivious

end Work

/-! ## Services -/

namespace Service

open Work

theorem bringIn_oblivious (h : Headers) : (bringIn h : Work σ Unit).Oblivious := by
  intro s t
  rw [runAt_bringIn, runAt_bringIn]
  unfold Stage.broughtIn
  cases Properties.ofHeaders? h with
  | none => exact ⟨t, rfl⟩
  | some p => exact ⟨_, rfl⟩

theorem takeOut_oblivious (call : Call) : (takeOut call : Work σ Unit).Oblivious :=
  .get_bind (fun _ => .draft _) fun _ _ => rfl

theorem describe_oblivious (call : Call) : (describe call : Work σ Unit).Oblivious :=
  .get_bind (fun _ => (Oblivious.draft _).bind fun _ => takeOut_oblivious call) fun _ _ => rfl

theorem letIn_oblivious (call : Call) : (letIn call : Work σ _).Oblivious := by
  refine .bind ?_ fun decision => .orRefuse _
  unfold Authentication.decide
  refine (Oblivious.existence _ _).bind fun x => ?_
  split
  · unfold Authentication.byOperation
    split
    · exact .pure _
    · exact (Oblivious.invoke _ _ _ _).bind fun r => .pure _
  · exact .pure _

theorem verify_oblivious (scope : Text) (o : Operation) :
    (verify scope o : Work σ Unit).Oblivious := by
  refine (Oblivious.existence scope o).bind fun x => ?_
  cases x with
  | found => exact .pure ()
  | noSolution => exact .get_bind (fun _ => .refuse _) fun _ _ => rfl
  | scopeNotFound => exact .refuse _
  | notFound => exact .refuse _

theorem responseHeaders_oblivious (scope : Text) (request : RequestHead) :
    (responseHeaders scope request : Work σ Unit).Oblivious := by
  refine (Oblivious.existence _ _).bind fun x => ?_
  split
  · refine (Oblivious.invoke _ _ _ _).bind fun r => ?_
    cases r with
    | ok result => exact .draft _
    | error e => exact .pure ()
  · exact .pure ()

theorem respond_oblivious (call : Call) (o : Operation) (result : Payload) :
    (respond call o result : Work σ Unit).Oblivious := by
  have hsend : (send call result : Work σ Unit).Oblivious := by
    refine .get_bind (fun s => ?_) fun _ _ => rfl
    cases encode call s.overrides result with
    | ok e => exact .draft _
    | error e => exact .refuse _
  unfold respond
  split
  · exact .draft _
  · refine (Oblivious.draft _).bind fun _ => ?_
    split
    · exact .pure ()
    · exact hsend

theorem proceed_oblivious (call : Call) (o : Operation) (extra : Option Payload) :
    (proceed call o extra : Work σ Unit).Oblivious := by
  refine (verify_oblivious _ _).bind fun _ => (responseHeaders_oblivious _ _).bind fun _ => ?_
  refine (Oblivious.invoke _ _ _ _).bind fun r => ?_
  cases r with
  | error cause => exact .refuse _
  | ok result => exact (takeOut_oblivious call).bind fun _ => respond_oblivious call o result

/-- **Every service is oblivious of the trace.** -/
theorem serve_oblivious (call : Call) : (serve call : Work σ Unit).Oblivious := by
  unfold serve
  cases call.verb.operation? with
  | none => exact (bringIn_oblivious _).bind fun _ => describe_oblivious call
  | some o =>
    show (operate call o).Oblivious
    rw [operate_eq]
    exact (bringIn_oblivious _).bind fun _ =>
      (letIn_oblivious call).bind fun extra => proceed_oblivious call o extra

end Service

/-- **The response does not depend on the session** but for its solution, nor on the trace and the
    pool, if the properties of the request can be read. -/
theorem Call.runWith_response {call : Call} (hr : Properties.Readable call.request.headers)
    (draft : Draft) (key : Text) (solution : Solution σ) (p q : Properties) (t u : Trace)
    (pool pool' : SessionPool σ) (shared : σ) :
    (call.runWith draft ⟨key, ⟨solution, p⟩, false⟩ t pool shared).draft =
        (call.runWith draft ⟨key, ⟨solution, q⟩, false⟩ u pool' shared).draft ∧
      (call.runWith draft ⟨key, ⟨solution, p⟩, false⟩ t pool shared).shared =
        (call.runWith draft ⟨key, ⟨solution, q⟩, false⟩ u pool' shared).shared := by
  have hp : Stage.start ⟨solution, p⟩ draft t shared =
      ((Stage.start (.new solution) draft [] shared).withProperties p).traced t := rfl
  have hq : Stage.start ⟨solution, q⟩ draft u shared =
      ((Stage.start (.new solution) draft [] shared).withProperties q).traced u := rfl
  obtain ⟨t', ht⟩ := Service.serve_oblivious call
    ((Stage.start (.new solution) draft [] shared).withProperties p) t
  obtain ⟨u', hu⟩ := Service.serve_oblivious call
    ((Stage.start (.new solution) draft [] shared).withProperties q) u
  rw [Service.serve_withProperties hr _ p q] at ht
  rw [Call.runWith_eq, Call.runWith_eq, hp, hq, ht, hu]
  rcases (Service.serve call).runAt
    ((Stage.start (.new solution) draft [] shared).withProperties q) with ⟨(e | m) | _, s⟩
  all_goals exact ⟨rfl, rfl⟩

end SessionGateway
