/-
  Startup — from the options of the command line to a running daemon.

  The configuration is loaded first, then the listener is opened, and last the files of a
  secure listener are looked for.  `Surroundings` is what all this depends on.
-/
import SessionGateway.CommandLine.Arguments
import SessionGateway.Config.Certificate
import SessionGateway.Lifecycle.Daemon

namespace SessionGateway.CommandLine

/-- What a start depends on. -/
structure Surroundings where
  /-- The octets of the file at a path, if there is one. -/
  content : Text → Option Bytes
  /-- Whether a path leads to something. -/
  there : Text → Bool
  /-- Whether a listener can be opened at an address. -/
  opens : Text → Bool

/-- Why the program does not start. -/
inductive StartupError where
  | config (error : ConfigError)
  | address (address : Text)
  | missing (file : MissingFile)
  deriving Repr, DecidableEq

/-- What an error says. -/
def StartupError.message : StartupError → Text
  | config e => e.message
  | address a => "cannot listen on ".toList ++ a
  | missing file => file.message

/-- The configuration that options ask for, and the text of its file. -/
def Options.configuration (o : Options) (s : Surroundings) :
    Except ConfigError (Config × Option Text) := do
  let (config, text) ←
    match o.config with
    | none => pure ({}, none)
    | some path => do
      let content := s.content path
      pure (← Config.load content, content.bind Utf8.decode?)
  match o.bind with
  | none => return (config, text)
  | some address =>
    return ({ config with listener := { config.listener with bindAddress := address } }, text)

/-- Starts a daemon. -/
def Options.start (o : Options) (s : Surroundings) : Except StartupError Daemon := do
  let (config, text) ← (o.configuration s).mapError .config
  let address := config.listener.bindAddress
  if !s.opens address then throw (.address address)
  match config.listener.tls.bind (Config.Tls.missing? s.there) with
  | some file => throw (.missing file)
  | none => return .new config text

/-! ## Ends of the program -/

/-- What becomes of the program. -/
inductive Fate where
  /-- It ends at once, with a status and a text for the user. -/
  | ended (status : Nat) (output : Text)
  | running (daemon : Daemon)

/-- What becomes of the program for an invocation; it ends with status one if it cannot start,
    and with two if the arguments make no sense. -/
def Invocation.fate (s : Surroundings) : Invocation → Fate
  | .help => .ended 0 helpText
  | .version => .ended 0 versionText
  | .refused => .ended 2 []
  | .start o =>
    match o.start s with
    | .ok daemon => .running daemon
    | .error _ => .ended 1 []

end SessionGateway.CommandLine
