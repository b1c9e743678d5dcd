/-
  Calls — requests that passed all checks that need no session.

  * `Verb` is what a method asks for; HEAD is served as GET, and a method without a verb is
    not dispatched;
  * `Call.readBody` sizes, classifies and decodes the body of a request;
  * `Call.prepare` checks body and path, in this order, with one configuration; the
    authentication settings are only carried along.
-/
import SessionGateway.Auth.Directory
import SessionGateway.Payload.Decoding
import SessionGateway.Response.CrossOrigin
import SessionGateway.Routing.Path
import SessionGateway.Session.Solution

namespace SessionGateway

/-! ## Verbs -/

/-- What a method asks for. -/
inductive Verb where
  | get
  | post
  | put
  | patch
  | delete
  | options
  deriving DecidableEq, Repr

namespace Verb

/-- The verb of a method. -/
def ofMethod? (method : Text) : Option Verb :=
  if method = "GET".toList ∨ method = "HEAD".toList then some get
  else if method = "POST".toList then some post
  else if method = "PUT".toList then some put
  else if method = "PATCH".toList then some patch
  else if method = "DELETE".toList then some delete
  else if method = "OPTIONS".toList then some options
  else none

/-- The operation that a verb runs. -/
def operation? : Verb → Option Operation
  | get => some .read
  | post => some .create
  | put => some .update
  | patch => some .patch
  | delete => some .delete
  | options => none

/-- Whether a request with the verb has a body. -/
def hasBody : Verb → Bool
  | post | put | patch => true
  | _ => false

end Verb

/-! ## Calls -/

/-- A decoded body and the kind it had. -/
structure DecodedBody where
  payload : Payload
  kind : Kind
  deriving Repr

/-- A request that is ready for a session. -/
structure Call where
  verb : Verb
  /-- The key of the session. -/
  key : Text
  path : RequestPath
  body : Option DecodedBody
  request : RequestHead
  /-- Whether cookies are for secure channels only. -/
  secure : Bool
  config : Config
  auth : AuthSettings

namespace Call

/-- The error of a body that cannot be decoded. -/
def decodingError : DecodingFault → GatewayError
  | .unsupported => .unsupportedContent
  | fault => .malformedContent fault.message

/-- The size that a request declares for its body. -/
def declaredSize? (h : Headers) : Option Nat :=
  (h.text? HeaderName.contentLength).bind fun t => Numeral.bounded? Numeral.max64 (Text.trim t)

/-- The charset that a type declares; UTF-8 if it declares none. -/
def charsetOf (contentType : Option Text) : Charset :=
  ((contentType.bind Media.charset?).map Charset.ofName).getD .utf8

/-- Sizes, classifies and decodes a body. -/
def readBody (h : Headers) (body : Bytes) (limit : Nat) : Except GatewayError DecodedBody :=
  if (declaredSize? h).any (limit < ·) || limit < body.length then
    .error (.payloadTooLarge limit)
  else if body.isEmpty then .error .noContent
  else
    let contentType := h.text? HeaderName.contentType
    let kind := Kind.classify contentType (some body) .other
    if kind = .other then .error .unsupportedContent
    else
      match Payload.decode kind contentType body (charsetOf contentType) with
      | .ok payload => .ok ⟨payload, kind⟩
      | .error fault => .error (decodingError fault)

/-- The body of a request, if its verb has one. -/
def bodyFor (verb : Verb) (request : Request) (limit : Nat) :
    Except GatewayError (Option DecodedBody) :=
  if verb.hasBody then (readBody request.headers request.body limit).map some else .ok none

/-- The key of the session for a path. -/
def keyOf (path : RequestPath) (nodebug : Bool) : Text :=
  if nodebug then path.sessionKey ++ nodebugSuffix else path.sessionKey

/-- Checks a request whose path, without escapes, is `path`. -/
def prepare (config : Config) (auth : AuthSettings) (tls : Bool) (verb : Verb) (path : Text)
    (request : Request) : Except GatewayError Call := do
  let body ← bodyFor verb request config.security.maxBodySize
  match RequestPath.stripMount? config.gateway.mountPath path with
  | none => throw (.invalidPath path)
  | some rest =>
    match RequestPath.parse? config.gateway.serviceName rest with
    | none => throw (.invalidPath rest)
    | some named =>
      let head := request.toRequestHead
      return {
        verb, body, config, auth
        key := keyOf named (CrossOrigin.asksNodebug head)
        path := named
        request := head
        secure := head.isSecure tls }

end Call

end SessionGateway
