/-
  The bracket — a session is taken out before a call and brought back after it.

  However the call ends, its session comes back once, under the key it was taken out with.
  It is to be dropped if the configuration says so, if the error does not let it be trusted
  any more, or if an operation crashed; after a crash the response starts over from the
  draft before the call.
-/
import SessionGateway.Dispatch.Service
import SessionGateway.Pool.SessionPool

namespace SessionGateway

/-- What a call leaves behind. -/
structure Outcome (σ : Type) where
  draft : Draft
  trace : Trace
  pool : SessionPool σ
  shared : σ

namespace Call
variable {σ : Type}

/-- The context in which an unclassified failure is reported. -/
def reportContext : Text := "Error executing rest call".toList

/-- What is reported of an error. -/
def report (e : GatewayError) : Trace :=
  if e.isUnclassified then [.reportError reportContext e.message] else []

/-- Ends a call: the response, what is reported, and whether the session is dropped. -/
def conclude (call : Call) (before : Draft) (ending : Except Halt Unit) (stage : Stage σ) :
    Draft × Trace × Bool :=
  let reload := call.config.gateway.reloadAfterRequest
  match ending with
  | .ok () => (stage.draft, [], reload)
  | .error (.refused e) => (stage.draft.fail e, report e, reload || e.forcesReload)
  | .error (.crashed message) => (before.fail (.internal message), [], true)

/-- Runs a call with a session that is out. -/
def runWith (call : Call) (draft : Draft) (guard : Guard σ) (trace : Trace) (pool : SessionPool σ)
    (shared : σ) : Outcome σ :=
  let (ending, stage) := (Service.serve call).run.run ⟨guard.session, .none, shared, draft, trace⟩
  let (response, reported, reload) := call.conclude draft ending stage
  let (released, pool) := pool.checkIn { guard with session := stage.session, reload }
  ⟨response, stage.trace ++ reported ++ released, pool, stage.shared⟩

/-- Takes out a session, runs a call with it, and brings it back. -/
def run (call : Call) (draft : Draft) (pool : SessionPool σ) (shared : σ) : Outcome σ :=
  match pool.checkOut call.key with
  | (.error source, trace, pool) =>
    ⟨draft.fail (.noSessionAvailable call.key source), trace, pool, shared⟩
  | (.ok guard, trace, pool) => call.runWith draft guard trace pool shared

end Call

end SessionGateway
