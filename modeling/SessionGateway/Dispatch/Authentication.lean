/-
  Authentication — whether a request may run an operation on a scope.

  A scope with an operation for it decides by itself: that operation gets the user and the
  password, and lets the request in by any result that is not falsy.  A result other than
  true is handed on.  For all other scopes the settings decide.
-/
import SessionGateway.Auth.Directory
import SessionGateway.Dispatch.Stage

namespace SessionGateway.Authentication
variable {σ : Type}

/-- The decision by the result of the scope's own operation. -/
def ofResult (realm : Text) : Except InvocationError Payload → AuthDecision
  | .ok result =>
    if result.isFalsy then .unauthenticated realm
    else
      match result with
      | .value (.bool true) => .allowed none
      | _ => .allowed (some result)
  | .error _ => .unauthenticated realm

/-- The decision of the scope's own operation. -/
def byOperation (credentials : Option Credentials) (realm scope : Text) (request : RequestHead) :
    Work σ AuthDecision := do
  match credentials with
  | none => return .unauthenticated realm
  | some c =>
    let result ← Work.invoke scope .authenticate request
      [Payload.ofText c.user, Payload.ofText c.password]
    return ofResult realm result

/-- The decision for a request. -/
def decide (settings : AuthSettings) (realm scope : Text) (request : RequestHead) :
    Work σ AuthDecision := do
  let credentials := Credentials.ofHeaders? request.headers
  if (← Work.existence scope .authenticate) = .found then
    byOperation credentials realm scope request
  else return settings.decide credentials realm

end SessionGateway.Authentication
