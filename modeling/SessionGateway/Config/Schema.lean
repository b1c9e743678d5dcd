/-
  Configuration — the settings of a gateway, with their defaults.
-/
import SessionGateway.Text.Basic

namespace SessionGateway

namespace Config

/-- The files of a certificate and its key. -/
structure Tls where
  certPath : Text
  keyPath : Text
  deriving Repr, DecidableEq

/-- Where the gateway listens. -/
structure Listener where
  bindAddress : Text := "0.0.0.0:8080".toList
  tls : Option Tls := none
  deriving Repr, DecidableEq

/-- How paths are laid out and requests handled. -/
structure Layout where
  /-- The first segment of every path. -/
  serviceName : Text := "rest_ws".toList
  /-- What is stripped before a path is read; empty for nothing. -/
  mountPath : Text := []
  /-- Whether a session is dropped after every request. -/
  reloadAfterRequest : Bool := false
  /-- The charset of responses for which nothing else picks one. -/
  defaultCharset : Text := "UTF-8".toList
  deriving Repr, DecidableEq

structure Timeouts where
  requestSecs : Nat := 30
  deriving Repr, DecidableEq

structure Security where
  /-- The greatest size of a body, in octets. -/
  maxBodySize : Nat := 2097152
  deriving Repr, DecidableEq

structure Pool where
  /-- The greatest number of sessions of one key that may be out. -/
  maxSessionsPerKey : Nat := 8
  deriving Repr, DecidableEq

/-- A user of the built-in directory. -/
structure User where
  name : Text
  password : Text
  groups : List Text := []
  deriving Repr, DecidableEq

structure Auth where
  /-- The groups that are let in; none for no check of groups. -/
  authorizedGroups : Option (List Text) := none
  users : List User := []
  deriving Repr, DecidableEq

structure Observability where
  logLevel : Text := "info".toList
  metricsEnabled : Bool := false
  metricsAddress : Text := "0.0.0.0:9090".toList
  deriving Repr, DecidableEq

/-- What is logged unless the environment says otherwise. -/
def Observability.directive (o : Observability) : Text :=
  "rest_gateway=".toList ++ o.logLevel ++ ",tower_http=".toList ++ o.logLevel

end Config

/-- The settings of a gateway. -/
structure Config where
  listener : Config.Listener := {}
  gateway : Config.Layout := {}
  timeouts : Config.Timeouts := {}
  security : Config.Security := {}
  pool : Config.Pool := {}
  auth : Config.Auth := {}
  observability : Config.Observability := {}
  deriving Repr, DecidableEq

end SessionGateway
