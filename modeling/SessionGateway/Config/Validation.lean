/-
  Validation — what a configuration must satisfy to be used.

  `Config.problems` lists every problem, in a fixed order; a configuration is valid if
  there is none.
-/
import SessionGateway.Config.Address
import SessionGateway.Config.Schema
import SessionGateway.Text.Blank
import SessionGateway.Text.Numeral

namespace SessionGateway

/-- A setting that cannot be used. -/
structure Problem where
  field : Text
  message : Text
  deriving Repr, DecidableEq

/-- How a problem is shown. -/
def Problem.text (p : Problem) : Text := p.field ++ ": ".toList ++ p.message

namespace Config

/-- The problem of a setting, if `holds`. -/
def check (holds : Bool) (field message : String) : List Problem :=
  if holds then [⟨field.toList, message.toList⟩] else []

/-- Whether a text is no single segment of a path. -/
def isNoSegment (t : Text) : Bool := t.isEmpty || t.contains '/'

/-- Whether a text is neither empty nor a path that begins with a slash and ends with none. -/
def isNoMount (t : Text) : Bool :=
  !t.isEmpty && (t.head? != some '/' || t.getLast? == some '/')

/-- The problems of a user, by its place in the list. -/
def userProblems (index : Nat) (u : User) : List Problem :=
  if (Text.trim u.name).isEmpty then
    [⟨"auth.users[".toList ++ Numeral.decimal index ++ "].name".toList,
      "must not be empty".toList⟩]
  else []

/-- The problems of users, the first of which stands at the given place. -/
def usersProblems (index : Nat) : List User → List Problem
  | [] => []
  | u :: us => userProblems index u ++ usersProblems (index + 1) us

/-- Every problem of a configuration. -/
def problems (c : Config) : List Problem :=
  check (!isSocketAddress c.listener.bindAddress) "listener.bind_address" "not a socket address" ++
  check (c.listener.tls.any (·.certPath.isEmpty)) "listener.tls.cert_path" "must not be empty" ++
  check (c.listener.tls.any (·.keyPath.isEmpty)) "listener.tls.key_path" "must not be empty" ++
  check (isNoSegment c.gateway.serviceName) "gateway.service_name"
    "must be a single path segment" ++
  check (isNoMount c.gateway.mountPath) "gateway.mount_path"
    "must start with '/' and not end with '/'" ++
  check (Text.trim c.gateway.defaultCharset).isEmpty "gateway.default_charset"
    "must not be empty" ++
  check (c.timeouts.requestSecs == 0) "timeouts.request_secs" "must be greater than 0" ++
  check (c.security.maxBodySize == 0) "security.max_body_size" "must be greater than 0" ++
  check (c.pool.maxSessionsPerKey == 0) "pool.max_sessions_per_key" "must be greater than 0" ++
  usersProblems 0 c.auth.users ++
  check (c.observability.metricsEnabled && !isSocketAddress c.observability.metricsAddress)
    "observability.metrics_address" "not a socket address"

/-- Whether a configuration can be used. -/
def isValid (c : Config) : Bool := c.problems.isEmpty

end Config

end SessionGateway
