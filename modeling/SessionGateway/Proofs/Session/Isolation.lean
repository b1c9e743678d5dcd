/-
  Isolation of clients — what a request can learn of the clients that had its session before.

  Two sessions of one solution may hold any two property maps, which earlier requests left.
  A request that brings in properties of its own overwrites both, and from there on its runs
  on the two sessions are the same run.

  * `serve_withProperties`: the service of such a request does not depend on the properties
    that its session had;
  * `isolated_iff_readable`: the inbound step makes any two property maps equal exactly if the
    properties of the request can be read, and then the whole call, with its response, its
    trace and the pool that it leaves, is the same on both sessions;
  * `unreadable_header_leaks`: a header that holds no JSON object leaves the properties of
    the client before, and they are written to the response.
-/
import SessionGateway.Proofs.Dispatch.Runs

namespace SessionGateway

variable {σ : Type}

namespace Service

theorem serve_bringIn (call : Call) :
    ∃ rest : Work σ Unit, serve call = bringIn call.request.headers >>= fun _ => rest := by
  unfold serve
  cases call.verb.operation? with
  | none => exact ⟨describe call, options_eq call⟩
  | some o => exact ⟨letIn call >>= proceed call o, operate_eq call o⟩

/-- The service of a request with readable properties does not depend on those of its session. -/
theorem serve_withProperties {call : Call} (hr : Properties.Readable call.request.headers)
    (s : Stage σ) (p q : Properties) :
    (serve call).runAt (s.withProperties p) = (serve call).runAt (s.withProperties q) := by
  obtain ⟨rest, hrest⟩ := serve_bringIn (σ := σ) call
  rw [hrest, Work.runAt_bind_ok (runAt_bringIn _ _), Work.runAt_bind_ok (runAt_bringIn _ _),
    Stage.broughtIn_withProperties hr s p q]

end Service

/-- **Clients are isolated exactly if the properties of the request can be read.** -/
theorem Call.isolated_iff_readable (call : Call) (solution : Solution σ) (draft : Draft)
    (trace : Trace) (pool : SessionPool σ) (shared : σ) :
    ((∀ p q : Properties,
        ((Service.bringIn call.request.headers).runAt
          (.start ⟨solution, p⟩ draft trace shared)).2.session.properties =
        ((Service.bringIn call.request.headers).runAt
          (.start ⟨solution, q⟩ draft trace shared)).2.session.properties) ↔
      Properties.Readable call.request.headers) ∧
    (Properties.Readable call.request.headers → ∀ p q : Properties,
      call.runWith draft ⟨call.key, ⟨solution, p⟩, false⟩ trace pool shared =
        call.runWith draft ⟨call.key, ⟨solution, q⟩, false⟩ trace pool shared) := by
  have hs : ∀ p, Stage.start ⟨solution, p⟩ draft trace shared =
      (Stage.start (.new solution) draft trace shared).withProperties p := fun _ => rfl
  simp only [Call.runWith_eq, hs, Service.runAt_bringIn]
  refine ⟨⟨fun h => Classical.byContradiction fun hr => ?_, fun hr p q => ?_⟩, fun hr p q => ?_⟩
  · -- two maps that differ stay different if nothing is brought in
    have hpq := h .empty (.ofList [([], [])])
    rw [Stage.broughtIn_of_not_readable hr, Stage.broughtIn_of_not_readable hr] at hpq
    exact absurd (show Properties.empty = .ofList [([], [])] from hpq) (by decide)
  · rw [Stage.broughtIn_withProperties hr _ p q]
  · rw [Service.serve_withProperties hr _ p q]

/-- A header that holds no JSON object leaves one client the properties of another: a session
    without properties keeps none, one with a secret keeps it and sends it to the response. -/
theorem Service.unreadable_header_leaks :
    let headers := Headers.ofList [(Properties.headerName, Utf8.encode "\x7b".toList)]
    let call : Call :=
      { verb := .options, key := "crm".toList, path := ⟨"crm".toList, "orders".toList, []⟩,
        body := none, request := ⟨"OPTIONS".toList, "/rest_ws/crm/orders".toList, headers⟩,
        secure := false, config := {}, auth := ⟨none, ⟨[]⟩⟩ }
    let left := fun p : Properties =>
      ((serve call).runAt (.start ⟨.new "crm".toList, p⟩ .new [] ())).2
    let secret := Properties.ofList [("secret".toList, "1".toList)]
    ((left .empty).session.properties = .empty ∧
      (left .empty).draft.headers.get? Properties.headerName = none) ∧
    ((left secret).session.properties = secret ∧
      (left secret).draft.headers.get? Properties.headerName =
        some (Utf8.encode "\x7b\"secret\":\"1\"\x7d".toList)) := by
  decide +kernel

end SessionGateway
