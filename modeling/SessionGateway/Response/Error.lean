/-
  Gateway errors — every way in which a request can fail, and what the client sees of it.

  Each error has a status and a message.  Two questions decide what becomes of the session:
  `forcesReload` asks whether it can still be trusted, and `isUnclassified` whether it is
  told of the failure.
-/
import SessionGateway.Session.Operation

namespace SessionGateway

/-- How a request fails. -/
inductive GatewayError where
  | invalidPath (path : Text)
  | unsupportedContent
  | noContent
  | payloadTooLarge (limit : Nat)
  | malformedContent (reason : Text)
  | unauthenticated (realm : Text)
  | unauthorized (reason : Text)
  | scopeUnavailable (solution : Text)
  | targetNotFound (scope : Text)
  | operationNotAllowed (scope operation : Text)
  /-- The operation failed; `userScript` says that it did so by itself. -/
  | operationFailed (cause : InvocationError) (userScript : Bool)
  | noSessionAvailable (key : Text) (source : PoolError)
  | internal (message : Text)
  deriving Repr, BEq

namespace GatewayError

/-- What an error says. -/
def message : GatewayError → Text
  | invalidPath path => "could not parse path '".toList ++ path ++ ['\x27']
  | unsupportedContent => "unsupported content type".toList
  | noContent => "request has no body".toList
  | payloadTooLarge limit =>
    "request body exceeds ".toList ++ Numeral.decimal limit ++ " bytes".toList
  | malformedContent reason => "malformed request body: ".toList ++ reason
  | unauthenticated realm => "not authenticated (realm ".toList ++ realm ++ [')']
  | unauthorized reason => "not authorized: ".toList ++ reason
  | scopeUnavailable solution => "solution ".toList ++ solution ++ " not loaded".toList
  | targetNotFound scope => "scope ".toList ++ scope ++ " not found".toList
  | operationNotAllowed scope operation =>
    "operation ".toList ++ operation ++ " not found on scope ".toList ++ scope
  | operationFailed cause _ => "operation execution failed: ".toList ++ cause.message
  | noSessionAvailable key source =>
    "no session available for ".toList ++ key ++ ": ".toList ++ source.message
  | internal m => "internal error: ".toList ++ m

/-- The status of the response. -/
def status : GatewayError → Nat
  | invalidPath _ | malformedContent _ => 400
  | unsupportedContent => 415
  | noContent => 204
  | payloadTooLarge _ => 413
  | unauthenticated _ => 401
  | unauthorized _ => 403
  | scopeUnavailable _ | noSessionAvailable _ _ => 503
  | targetNotFound _ => 404
  | operationNotAllowed _ _ => 405
  | operationFailed cause _ => cause.status?.getD 500
  | internal _ => 500

/-- The body of the response; only an operation supplies one. -/
def explicitBody? : GatewayError → Option Text
  | operationFailed cause _ => cause.explicitMessage?
  | _ => none

/-- Whether the session must be built anew. -/
def forcesReload : GatewayError → Bool
  | operationFailed _ userScript => !userScript
  | internal _ => true
  | _ => false

/-- Whether the failure is none that the gateway has a status for, and is reported. -/
def isUnclassified : GatewayError → Bool
  | operationFailed cause _ => cause.status?.isNone
  | internal _ => true
  | _ => false

end GatewayError

end SessionGateway
