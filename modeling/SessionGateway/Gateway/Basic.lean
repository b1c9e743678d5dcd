/-
  The gateway — requests in, responses out, over a pool of sessions.

  A gateway holds a configuration, the authentication settings derived from it, a pool,
  and the state that operations share.  `Gateway.handle` answers one request;
  `Gateway.apply` takes over a new configuration, in two steps: first the authentication
  settings, then the rest.  The size of the pool and the kind of listener stay as they
  were when the gateway started.
-/
import SessionGateway.Dispatch.Bracket

namespace SessionGateway

/-- A running gateway. -/
structure Gateway (σ : Type) where
  config : Config
  auth : AuthSettings
  pool : SessionPool σ
  /-- Whether the gateway listens on a secure channel. -/
  tls : Bool
  /-- A directory that takes the place of the configured users. -/
  directory : Option Directory
  shared : σ

namespace Gateway
variable {σ : Type}

/-- A gateway at its start. -/
def new (config : Config) (workshop : Workshop σ) (directory : Option Directory) (shared : σ) :
    Gateway σ where
  config
  auth := .ofConfig config.auth directory
  pool := .new config.pool.maxSessionsPerKey workshop
  tls := config.listener.tls.isSome
  directory
  shared

/-! ## Reloading -/

/-- The first step of a reload. -/
def storeAuth (g : Gateway σ) (config : Config) : Gateway σ :=
  { g with auth := .ofConfig config.auth g.directory }

/-- The second step of a reload. -/
def storeConfig (g : Gateway σ) (config : Config) : Gateway σ := { g with config }

/-- Takes over a new configuration. -/
def apply (g : Gateway σ) (config : Config) : Gateway σ := (g.storeAuth config).storeConfig config

/-! ## Answering requests -/

/-- The response that every request starts from. -/
def opening (request : RequestHead) : Draft :=
  CrossOrigin.apply .new request.headers (CrossOrigin.asksNodebug request)

/-- Dispatches a request whose path, without escapes, is `path`. -/
def dispatch (g : Gateway σ) (path : Text) (request : Request) : Draft × Trace × Gateway σ :=
  let draft := opening request.toRequestHead
  match Verb.ofMethod? request.method with
  | none => (draft.statusOnly 405, [], g)
  | some verb =>
    match Call.prepare g.config g.auth g.tls verb path request with
    | .error e => (draft.fail e, [], g)
    | .ok call =>
      let o := call.run draft g.pool g.shared
      (o.draft, o.trace, { g with pool := o.pool, shared := o.shared })

/-- The response to a path that is no text without its escapes. -/
def unreadablePath : Draft :=
  ⟨400, Headers.ofList [(HeaderName.contentType, Utf8.encode "text/plain; charset=utf-8".toList)],
    Utf8.encode "Invalid URL: Invalid UTF-8 in `path`".toList⟩

/-- Finds the path of a request and dispatches it; what has no path is not found. -/
def route (g : Gateway σ) (request : Request) : Draft × Trace × Gateway σ :=
  match request.path with
  | '/' :: rest =>
    match Utf8.decode? (Percent.decode rest) with
    | some t => g.dispatch ('/' :: t) request
    | none => (unreadablePath, [], g)
  | _ => (⟨404, .empty, []⟩, [], g)

/-- Gives a response the name of its request, unless an operation gave it one. -/
def named (id : Bytes) (d : Draft) : Draft :=
  if d.headers.has RequestHead.idHeader then d
  else { d with headers := d.headers.append RequestHead.idHeader id }

/-- A response without its body, if the method asks for none. -/
def trimmed (method : Text) (d : Draft) : Draft :=
  if method = "HEAD".toList then { d with body := [] } else d

/-- Answers a request; one without a name gets the name `freshId`. -/
def handle (g : Gateway σ) (freshId : Bytes) (request : Request) : Draft × Trace × Gateway σ :=
  let id := (request.headers.get? RequestHead.idHeader).getD freshId
  let headers :=
    if request.headers.has RequestHead.idHeader then request.headers
    else request.headers.append RequestHead.idHeader id
  let (d, trace, g) := g.route { request with headers }
  (trimmed request.method (named id d), trace, g)

end Gateway

end SessionGateway
