/-
  Service — what a call does with its session.

  An OPTIONS request lists the verbs of a scope.  Any other request brings in its
  properties, is authenticated, checks that its operation exists, runs the operation for
  response headers and then its own, writes the properties to the response and encodes the
  result.  A result of null or false is no content to read, update or delete: the response
  is then a bare 404; only a creation may answer nothing.
-/
import SessionGateway.Dispatch.Arguments
import SessionGateway.Dispatch.Authentication
import SessionGateway.Dispatch.Call

namespace SessionGateway.Service
variable {σ : Type}

/-! ## Properties -/

/-- Gives the session the properties that a request carries; a header that cannot be read leaves
    those it has. -/
def bringIn (h : Headers) : Work σ Unit :=
  match Properties.ofHeaders? h with
  | some p => Work.setProperties p
  | none => pure ()

/-- The path of the cookies of a solution. -/
def cookiePath (config : Config) (solution : Text) : Text :=
  config.gateway.mountPath ++ '/' :: (config.gateway.serviceName ++ '/' :: solution)

/-- Writes the properties of the session to the response. -/
def takeOut (call : Call) : Work σ Unit := do
  let session := (← get).session
  let path := cookiePath call.config session.solution.name
  Work.draft fun d => { d with headers := session.properties.writeTo path call.secure d.headers }

/-! ## Options -/

/-- The verbs that a scope may have, with their operations. -/
def verbs : List (Operation × Text) :=
  [(.read, "GET".toList), (.create, "POST".toList), (.update, "PUT".toList),
    (.patch, "PATCH".toList), (.delete, "DELETE".toList)]

/-- The list of verbs of a scope. -/
def allowed (solution : Solution σ) (scope : Text) : Text :=
  Text.join ", ".toList ("TRACE, OPTIONS, HEAD".toList ::
    (verbs.filter fun (o, _) => solution.existence scope o == .found).map (·.2))

/-- The request headers that a page may send, with the list of verbs among them. -/
def allowedHeaders (requested : Option Text) : Text :=
  match requested with
  | none => "Allow".toList
  | some t => if occursIn "Allow".toList t then t else t ++ ", Allow".toList

/-- Answers with the verbs of a scope. -/
def options (call : Call) : Work σ Unit := do
  bringIn call.request.headers
  let solution := (← get).session.solution
  let headers := allowedHeaders (call.request.headers.text? HeaderName.requestHeaders)
  Work.draft fun d =>
    ((d.setHeader HeaderName.allow (allowed solution call.path.scope)).setHeader
      HeaderName.allowHeaders headers).setHeader HeaderName.exposeHeaders
        (headers ++ ", ".toList ++ HeaderName.nodebug ++ ", ".toList ++ Properties.headerName)
  takeOut call

/-! ## Checks before the operation -/

/-- Refuses an operation that the solution does not have on a scope. -/
def verify (scope : Text) (o : Operation) : Work σ Unit := do
  match ← Work.existence scope o with
  | .found => return ()
  | .noSolution => Work.refuse (.scopeUnavailable (← get).session.solution.name)
  | .scopeNotFound => Work.refuse (.targetNotFound scope)
  | .notFound => Work.refuse (.operationNotAllowed scope o.functionName)

/-- The header that an item of a result names: a text `name=value`, or an object with both. -/
def headerOf? : Json → Option (Text × Text)
  | .string t => (cut? '=' t).bind fun (name, value) => (Header.name? name).map fun n => (n, value)
  | .object ms =>
    match Json.Members.get? "name".toList ms, Json.Members.get? "value".toList ms with
    | some name, some value => (Header.name? name.plain).map fun n => (n, value.plain)
    | _, _ => none
  | _ => none

/-- The items of a result: those of an array, none of null, and any other value alone. -/
def itemsOf : Json → List Json
  | .array items => items
  | .null => []
  | v => [v]

/-- Adds the headers that the items of a result name. -/
def addHeaders (d : Draft) (items : List Json) : Draft :=
  (items.filterMap headerOf?).foldl (fun d (name, value) => d.addHeader name value) d

/-- Runs the scope's operation for response headers, if it has one; a failure of it is ignored. -/
def responseHeaders (scope : Text) (request : RequestHead) : Work σ Unit := do
  if (← Work.existence scope .responseHeaders) = .found then
    match ← Work.invoke scope .responseHeaders request [] with
    | .ok result => Work.draft fun d => addHeaders d (itemsOf result.toJson)
    | .error _ => return ()

/-! ## Results -/

/-- The charset of a response: that of the operation, of the accepted type, of the request's type,
    or the default. -/
def charsetFor (call : Call) (overrides : Overrides) : Charset :=
  let h := call.request.headers
  let named :=
    ((overrides.charset.or ((h.text? HeaderName.accept).bind Media.charset?)).or
      ((h.text? HeaderName.contentType).bind Media.charset?)).getD call.config.gateway.defaultCharset
  Charset.ofName named

/-- The kind of a response: the accepted one, or else that of the request's body, or JSON. -/
def kindFor (call : Call) : Kind :=
  let fallback := (call.body.map (·.kind)).getD .json
  (Kind.ofHeader (call.request.headers.text? HeaderName.accept)).orElse fallback

/-- The body for a result. -/
def encode (call : Call) (overrides : Overrides) (result : Payload) :
    Except EncodingFault Encoded :=
  let charset := charsetFor call overrides
  match overrides.contentType with
  | some type => .ok (Encoded.preset result type charset)
  | none =>
    match result with
    | .bytes bs => .ok (Encoded.raw bs (call.request.headers.text? HeaderName.accept))
    | _ =>
      Encoded.structured result (kindFor call) charset
        (Arguments.queryParam? call.request.query? "callback".toList)

/-- Sends a result. -/
def send (call : Call) (result : Payload) : Work σ Unit := do
  match encode call (← get).overrides result with
  | .ok e => Work.draft fun d => d.send e
  | .error _ => Work.refuse .unsupportedContent

/-- Answers with a result. -/
def respond (call : Call) (o : Operation) (result : Payload) : Work σ Unit := do
  if o ≠ .create ∧ (result.isNull ∨ result.isFalse) then
    Work.draft fun d => d.statusOnly 404
  else
    Work.draft Draft.noCache
    if o = .create ∧ result.isNull then return ()
    send call result

/-! ## The service -/

/-- Runs the operation of a call. -/
def operate (call : Call) (o : Operation) : Work σ Unit := do
  let scope := call.path.scope
  bringIn call.request.headers
  let decision ← Authentication.decide call.auth call.path.sessionKey scope call.request
  let extra ← Work.orRefuse decision.toExcept
  verify scope o
  responseHeaders scope call.request
  let args := Arguments.build (call.body.map (·.payload)) call.path.arguments call.request.query?
    extra
  match ← Work.invoke scope o call.request args with
  | .error cause => Work.refuse (.operationFailed cause cause.isUserScript)
  | .ok result =>
    takeOut call
    respond call o result

/-- Does what a call asks for. -/
def serve (call : Call) : Work σ Unit :=
  match call.verb.operation? with
  | some o => operate call o
  | none => options call

end SessionGateway.Service
