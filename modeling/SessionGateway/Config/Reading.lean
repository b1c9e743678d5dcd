/-
  Reading configurations — settings out of a TOML table.

  A section is a table whose unknown keys do not matter, or an array that gives the
  settings in their order.  A setting that is absent has its default, if there is one; a
  setting of another type makes the configuration unreadable.
-/
import SessionGateway.Config.Schema
import SessionGateway.Toml.Parser

namespace SessionGateway.Config

/-- The settings of a section, by name or by position. -/
inductive Settings where
  | named (ms : Toml.Members)
  | positional (items : List Toml.Node)

namespace Settings

/-- The settings of a node; a moment counts as a table without any of them. -/
def of? : Toml.Node → Option Settings
  | .inline ms | .table _ ms => some (named ms)
  | .tables items => some (positional (items.map (.table .header)))
  | .array items => some (positional items)
  | .moment => some (named [])
  | _ => none

/-- The setting of a name and position. -/
def at? (s : Settings) (index : Nat) (name : String) : Option Toml.Node :=
  match s with
  | named ms => ms.get? name.toList
  | positional items => items[index]?

/-- Reads a setting; an absent one has the given value, if any. -/
def read {α : Type} (s : Settings) (index : Nat) (name : String) (reader : Toml.Node → Option α)
    (absent : Option α) : Option α :=
  match s.at? index name with
  | some n => reader n
  | none => absent

end Settings

/-! ## Types of settings -/

def text? : Toml.Node → Option Text
  | .text t => some t
  | _ => none

def boolean? : Toml.Node → Option Bool
  | .boolean b => some b
  | _ => none

/-- A whole number that is not negative. -/
def natural? : Toml.Node → Option Nat
  | .integer i => if 0 ≤ i then some i.toNat else none
  | _ => none

/-- A list of settings of one type. -/
def list? {α : Type} (reader : Toml.Node → Option α) : Toml.Node → Option (List α)
  | .array items => items.mapM reader
  | .tables items => items.mapM fun ms => reader (.table .header ms)
  | _ => none

/-! ## Sections -/

def tls? (n : Toml.Node) : Option Tls := do
  let s ← Settings.of? n
  return ⟨← s.read 0 "cert_path" text? none, ← s.read 1 "key_path" text? none⟩

def listener? (n : Toml.Node) : Option Listener := do
  let s ← Settings.of? n
  let d : Listener := {}
  return ⟨← s.read 0 "bind_address" text? d.bindAddress,
    ← s.read 1 "tls" (fun n => (tls? n).map some) (some d.tls)⟩

def layout? (n : Toml.Node) : Option Layout := do
  let s ← Settings.of? n
  let d : Layout := {}
  return ⟨← s.read 0 "service_name" text? d.serviceName, ← s.read 1 "mount_path" text? d.mountPath,
    ← s.read 2 "reload_after_request" boolean? d.reloadAfterRequest,
    ← s.read 3 "default_charset" text? d.defaultCharset⟩

def timeouts? (n : Toml.Node) : Option Timeouts := do
  let s ← Settings.of? n
  let d : Timeouts := {}
  return ⟨← s.read 0 "request_secs" natural? d.requestSecs⟩

def security? (n : Toml.Node) : Option Security := do
  let s ← Settings.of? n
  let d : Security := {}
  return ⟨← s.read 0 "max_body_size" natural? d.maxBodySize⟩

def pool? (n : Toml.Node) : Option Pool := do
  let s ← Settings.of? n
  let d : Pool := {}
  return ⟨← s.read 0 "max_sessions_per_key" natural? d.maxSessionsPerKey⟩

def user? (n : Toml.Node) : Option User := do
  let s ← Settings.of? n
  return ⟨← s.read 0 "name" text? none, ← s.read 1 "password" text? none,
    ← s.read 2 "groups" (list? text?) (some [])⟩

def auth? (n : Toml.Node) : Option Auth := do
  let s ← Settings.of? n
  let d : Auth := {}
  return ⟨← s.read 0 "authorized_groups" (fun n => (list? text? n).map some)
      (some d.authorizedGroups),
    ← s.read 1 "users" (list? user?) d.users⟩

def observability? (n : Toml.Node) : Option Observability := do
  let s ← Settings.of? n
  let d : Observability := {}
  return ⟨← s.read 0 "log_level" text? d.logLevel,
    ← s.read 1 "metrics_enabled" boolean? d.metricsEnabled,
    ← s.read 2 "metrics_address" text? d.metricsAddress⟩

/-- The configuration of a table. -/
def ofMembers? (ms : Toml.Members) : Option Config := do
  let s := Settings.named ms
  return {
    listener := ← s.read 0 "listener" listener? (some {})
    gateway := ← s.read 1 "gateway" layout? (some {})
    timeouts := ← s.read 2 "timeouts" timeouts? (some {})
    security := ← s.read 3 "security" security? (some {})
    pool := ← s.read 4 "pool" pool? (some {})
    auth := ← s.read 5 "auth" auth? (some {})
    observability := ← s.read 6 "observability" observability? (some {}) }

end SessionGateway.Config
