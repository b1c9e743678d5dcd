/-
  Drafting — what a dispatch makes of the draft that it begins with.

  A computation obeys a law (`Work.Obeys`) if the law holds between the draft that it found and the
  draft that it leaves, whether it comes to its end, is refused, or breaks off in the middle.  No
  operation ever sees the draft: what it gives back reaches the response through the writers only,
  and these keep to every law of edits (`Draft.Law`).

  * `Obeys.bind`: two computations that obey, behind each other;
  * `serve_obeys`: every service obeys, whatever its operations do;
  * `Call.run_obeys`: so does a call, also where a crash takes the response back to its start;
  * `Gateway.dispatch_obeys`: a law holds between the beginning of a response and its end.
-/
import SessionGateway.Gateway.Basic
import SessionGateway.Proofs.Dispatch.Runs
import SessionGateway.Proofs.Response.Edits

namespace SessionGateway

variable {σ α β : Type} {R : Draft → Draft → Prop}

/-! ## Computations -/

namespace Work

/-- However a computation ends, a law holds between the drafts before and after it. -/
def Obeys (R : Draft → Draft → Prop) (w : Work σ α) : Prop :=
  ∀ s : Stage σ, R s.draft (w.runAt s).2.draft

namespace Obeys
variable {w : Work σ α}

/-- **One computation behind another**, which need not be reached. -/
theorem bind (law : Draft.Law R) {f : α → Work σ β} (hw : w.Obeys R) (hf : ∀ a, (f a).Obeys R) :
    (w >>= f).Obeys R := by
  intro s
  have hs := hw s
  rw [runAt_bind]
  rcases hr : w.runAt s with ⟨halt | a, s'⟩ <;> rw [hr] at hs
  · exact hs
  · exact law.trans hs (hf a s')

/-- A change of the draft that keeps to the law. -/
theorem draft {f : Draft → Draft} (hf : ∀ d, R d (f d)) : (draft f : Work σ Unit).Obeys R :=
  fun s => hf s.draft

section
variable (law : Draft.Law R)
include law

/-- A computation that leaves the draft alone. -/
theorem still (h : ∀ s, (w.runAt s).2.draft = s.draft) : w.Obeys R := fun s => by
  rw [h s]
  exact law.refl s.draft

theorem pure (a : α) : (pure a : Work σ α).Obeys R := still law fun _ => rfl

theorem get : (get : Work σ (Stage σ)).Obeys R := still law fun _ => rfl

theorem refuse (e : GatewayError) : (refuse e : Work σ α).Obeys R := still law fun _ => rfl

theorem existence (scope : Text) (o : Operation) :
    (existence scope o : Work σ Existence).Obeys R :=
  still law fun _ => rfl

theorem orRefuse (r : Except GatewayError α) : (orRefuse r : Work σ α).Obeys R :=
  still law fun s => by rw [runAt_orRefuse]

/-- An operation does not see the draft. -/
theorem invoke (scope : Text) (o : Operation) (request : RequestHead) (args : List Payload) :
    (invoke scope o request args : Work σ _).Obeys R := still law fun s => by
  rw [runAt_invoke]
  rfl

end

end Obeys

end Work

/-! ## Services -/

namespace Service

open Work

variable (law : Draft.Law R)
include law

theorem bringIn_obeys (h : Headers) : (bringIn h : Work σ Unit).Obeys R := .still law fun s => by
  rw [runAt_bringIn]
  unfold Stage.broughtIn
  cases Properties.ofHeaders? h <;> rfl

theorem takeOut_obeys (call : Call) : (takeOut call : Work σ Unit).Obeys R :=
  (Obeys.get law).bind law fun s => .draft fun d => law.writeTo d s.session.properties _ _

theorem describe_obeys (call : Call) : (describe call : Work σ Unit).Obeys R := by
  refine (Obeys.get law).bind law fun s => ?_
  refine (Obeys.draft fun d => ?_).bind law fun _ => takeOut_obeys law call
  exact law.trans (law.andSet (law.set d (by decide) _) (by decide) _) (law.expose _ _)

theorem letIn_obeys (call : Call) : (letIn call : Work σ _).Obeys R := by
  refine Obeys.bind law ?_ fun decision => .orRefuse law _
  unfold Authentication.decide
  refine (Obeys.existence law _ _).bind law fun x => ?_
  split
  · unfold Authentication.byOperation
    split
    · exact .pure law _
    · exact (Obeys.invoke law _ _ _ _).bind law fun r => .pure law _
  · exact .pure law _

theorem verify_obeys (scope : Text) (o : Operation) : (verify scope o : Work σ Unit).Obeys R := by
  refine (Obeys.existence law scope o).bind law fun x => ?_
  cases x with
  | found => exact .pure law ()
  | noSolution => exact (Obeys.get law).bind law fun s => .refuse law _
  | scopeNotFound => exact .refuse law _
  | notFound => exact .refuse law _

/-- The names and values come from the operation, and reach the response by edits. -/
theorem responseHeaders_obeys (scope : Text) (request : RequestHead) :
    (responseHeaders scope request : Work σ Unit).Obeys R := by
  refine (Obeys.existence law _ _).bind law fun x => ?_
  split
  · refine (Obeys.invoke law _ _ _ _).bind law fun r => ?_
    cases r with
    | ok result => exact .draft fun d => law.addHeaders d _
    | error e => exact .pure law ()
  · exact .pure law ()

/-- The type and the charset may be those of the operation. -/
theorem respond_obeys (call : Call) (o : Operation) (result : Payload) :
    (respond call o result : Work σ Unit).Obeys R := by
  have hsend : (send call result : Work σ Unit).Obeys R := by
    refine (Obeys.get law).bind law fun s => ?_
    cases encode call s.overrides result with
    | ok e => exact .draft fun d => law.send d e
    | error e => exact .refuse law _
  unfold respond
  split
  · exact .draft fun d => law.statusOnly d 404
  · refine (Obeys.draft law.noCache).bind law fun _ => ?_
    split
    · exact .pure law ()
    · exact hsend

theorem proceed_obeys (call : Call) (o : Operation) (extra : Option Payload) :
    (proceed call o extra : Work σ Unit).Obeys R := by
  refine (verify_obeys law _ _).bind law fun _ => ?_
  refine (responseHeaders_obeys law _ _).bind law fun _ => ?_
  refine (Obeys.invoke law _ _ _ _).bind law fun r => ?_
  cases r with
  | error cause => exact .refuse law _
  | ok result => exact (takeOut_obeys law call).bind law fun _ => respond_obeys law call o result

/-- **Every service obeys**, whatever its operations do. -/
theorem serve_obeys (call : Call) : (serve call : Work σ Unit).Obeys R := by
  unfold serve
  cases call.verb.operation? with
  | none => exact (bringIn_obeys law _).bind law fun _ => describe_obeys law call
  | some o =>
    show (operate call o).Obeys R
    rw [operate_eq]
    exact (bringIn_obeys law _).bind law fun _ =>
      (letIn_obeys law call).bind law fun extra => proceed_obeys law call o extra

end Service

/-! ## Calls -/

namespace Call

variable (law : Draft.Law R)
include law

/-- What ends a call turns its draft into a response; after a crash that starts over. -/
theorem conclude_obeys (call : Call) {before : Draft} (ending : Except Halt Unit) {s : Stage σ}
    (h : R before s.draft) : R before (call.conclude before ending s).1 := by
  rcases ending with (e | m) | _
  · exact law.trans h (law.fail s.draft e)
  · exact law.fail before (.internal m)
  · exact h

theorem run_obeys (call : Call) (d : Draft) (pool : SessionPool σ) (shared : σ) :
    R d (call.run d pool shared).draft := by
  unfold run
  split
  · exact law.fail d (.noSessionAvailable _ _)
  · next guard trace _ _ =>
    exact call.conclude_obeys law _
      (Service.serve_obeys law call (.start guard.session d trace shared))

end Call

/-! ## Requests -/

/-- **A law holds between the beginning of a response and its end**, however the request is
    answered. -/
theorem Gateway.dispatch_obeys (law : Draft.Law R) (g : Gateway σ) (path : Text)
    (request : Request) : R (opening request.toRequestHead) (g.dispatch path request).1 := by
  unfold dispatch
  dsimp only
  split
  · exact law.statusOnly _ 405
  · split
    · exact law.fail _ _
    · exact Call.run_obeys law _ _ _ _

end SessionGateway
