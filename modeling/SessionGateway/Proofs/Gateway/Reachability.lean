/-
  Reachability — the gateways that can come to be.

  A gateway starts with a registry, which it never changes.  It answers requests and takes
  over configurations; between any two of these, other requests may take sessions out of its
  pool, change their properties, and bring them back (`Gateway.Reachable`).

  * `pool_runCall`: to the pool, a call is a checkout and, if there is a session, its release;
  * `Reachable.faithful`: in every reachable gateway, idle or out, a session runs the solution
    that its key asks for;
  * `Reachable.refines`: what is conserved in a system of threads is so in the pool of every
    reachable gateway.
-/
import SessionGateway.Proofs.Dispatch.Traces
import SessionGateway.Proofs.Pool.Refinement

namespace SessionGateway.Gateway

variable {σ : Type} {registry : Registry σ}

/-- The gateways over a registry that can come to be, each with the sessions that are out. -/
inductive Reachable (registry : Registry σ) : Gateway σ → List (Guard σ) → Prop where
  | start (config : Config) (failures : List PlannedFailure) (directory : Option Directory)
      (shared : σ) :
      Reachable registry (.new config ⟨registry, failures⟩ directory shared) []
  | handle {g held} (freshId : Bytes) (request : Request) :
      Reachable registry g held → Reachable registry (g.handle freshId request).2.2 held
  | storeAuth {g held} (config : Config) :
      Reachable registry g held → Reachable registry (g.storeAuth config) held
  | storeConfig {g held} (config : Config) :
      Reachable registry g held → Reachable registry (g.storeConfig config) held
  /-- Another request takes out a session. -/
  | checkOut {g held key guard} :
      (g.pool.checkOut key).1 = .ok guard → Reachable registry g held →
      Reachable registry { g with pool := (g.pool.checkOut key).2.2 } (guard :: held)
  /-- Another request gets no session. -/
  | refuse {g held key e} :
      (g.pool.checkOut key).1 = .error e → Reachable registry g held →
      Reachable registry { g with pool := (g.pool.checkOut key).2.2 } held
  /-- Another request brings its session back, with properties of its own. -/
  | checkIn {g before after} {guard : Guard σ} (properties : Properties) {reload : Bool} :
      (guard.reload → reload) → Reachable registry g (before ++ guard :: after) →
      Reachable registry
        { g with pool := (g.pool.checkIn
            { guard with session := { guard.session with properties }, reload }).2 }
        (before ++ after)
  /-- Another request runs an operation. -/
  | share {g held} (shared : σ) :
      Reachable registry g held → Reachable registry { g with shared } held

/-- A call takes out a session, which keeps its solution, and brings it back, or gets none. -/
theorem pool_runCall (g : Gateway σ) (draft : Draft) (call : Call) :
    (∃ guard session, ∃ reload : Bool, (g.pool.checkOut call.key).1 = .ok guard ∧
      session.solution = guard.session.solution ∧ (guard.reload → reload) ∧
      (g.runCall draft call).2.2.pool =
        ((g.pool.checkOut call.key).2.2.checkIn { guard with session, reload }).2) ∨
    ∃ e, (g.pool.checkOut call.key).1 = .error e ∧
      (g.runCall draft call).2.2.pool = (g.pool.checkOut call.key).2.2 := by
  unfold runCall Call.run
  rcases g.pool.checkOut_trace call.key with ⟨session, p', t, -, hc⟩ | ⟨e, p', t, -, hc⟩ <;> rw [hc]
  · refine .inl ⟨_, _, _, rfl, ?_, nofun, rfl⟩
    exact (Service.serve_emits call).solution (.start session draft t g.shared)
  · exact .inr ⟨e, rfl, rfl⟩

/-- What calls keep of a pool, requests keep. -/
theorem pool_handle (P : SessionPool σ → Prop) {g : Gateway σ} (h : P g.pool)
    (hcall : ∀ draft call, P (g.runCall draft call).2.2.pool) (freshId : Bytes)
    (request : Request) : P (g.handle freshId request).2.2.pool := by
  rcases g.handle_cases freshId request with ⟨draft, call, he⟩ | he <;> rw [he]
  · exact hcall draft call
  · exact h

namespace Reachable
variable {g : Gateway σ} {held : List (Guard σ)}

/-- **Every session runs the solution that its key asks for**, idle or out. -/
theorem faithful (h : Reachable registry g held) :
    g.pool.Faithful registry ∧ ∀ guard ∈ held, guard.Faithful registry := by
  induction h with
  | start config failures => exact ⟨.new _ failures, by simp⟩
  | @handle g held freshId request _ ih =>
    refine ⟨pool_handle (·.Faithful registry) ih.1 (fun draft call => ?_) freshId request, ih.2⟩
    obtain ⟨hp, hg⟩ := ih.1.checkOut call.key
    rcases g.pool_runCall draft call with ⟨guard, session, reload, hc, hs, -, he⟩ | ⟨e, -, he⟩ <;>
      rw [he]
    · exact hp.checkIn ((hg guard hc).2.trans (congrArg some hs.symm))
    · exact hp
  | storeAuth _ _ ih => exact ih
  | storeConfig _ _ ih => exact ih
  | @checkOut g held key guard hc _ ih =>
    obtain ⟨hp, hg⟩ := ih.1.checkOut key
    exact ⟨hp, List.forall_mem_cons.2 ⟨(hg guard hc).2, ih.2⟩⟩
  | @refuse g held key e _ _ ih => exact ⟨(ih.1.checkOut key).1, ih.2⟩
  | @checkIn g before after guard properties reload _ _ ih =>
    refine ⟨ih.1.checkIn (ih.2 guard (by simp)), fun other ho => ih.2 other ?_⟩
    simp only [List.mem_append, List.mem_cons] at ho ⊢
    exact ho.imp id Or.inr
  | share _ _ ih => exact ih

/-- **The pool refines a system of threads** that hold the sessions that are out. -/
theorem refines (h : Reachable registry g held) : g.pool.Refines held := by
  induction h with
  | start config failures => exact .new _ _
  | @handle g held freshId request _ ih =>
    refine pool_handle (·.Refines held) ih (fun draft call => ?_) freshId request
    have hp := ih.checkOut call.key
    rcases g.pool_runCall draft call with ⟨guard, session, reload, hc, -, hr, he⟩ | ⟨e, hc, he⟩ <;>
      rw [hc] at hp <;> rw [he]
    · exact .checkIn (show SessionPool.Refines _ ([] ++ guard :: held) from hp) session hr
    · exact hp
  | storeAuth _ _ ih => exact ih
  | storeConfig _ _ ih => exact ih
  | @checkOut g held key guard hc _ ih =>
    have hp := ih.checkOut key
    rwa [hc] at hp
  | @refuse g held key e hc _ ih =>
    have hp := ih.checkOut key
    rwa [hc] at hp
  | @checkIn g before after guard properties reload hr _ ih => exact ih.checkIn _ hr
  | share _ _ ih => exact ih

end Reachable

end SessionGateway.Gateway
