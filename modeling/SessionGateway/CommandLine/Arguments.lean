/-
  Arguments of the command line — what a user asks of the program.

  There are two options with a value, which may follow its option, be attached to it, or
  stand behind an equals sign; each may be given once.  Help and version end the reading
  at once, so that only what stands before them can be refused.
-/
import SessionGateway.Text.Basic

namespace SessionGateway.CommandLine

/-- The options with a value. -/
inductive Flag where
  | config
  | bind
  deriving Repr, DecidableEq

/-- What the options ask for. -/
structure Options where
  /-- The path of the configuration file. -/
  config : Option Text
  /-- An address to listen on in place of the configured one. -/
  bind : Option Text
  deriving Repr, DecidableEq

/-- What a user asks of the program. -/
inductive Invocation where
  | start (options : Options)
  | help
  | version
  /-- The arguments make no sense. -/
  | refused
  deriving Repr, DecidableEq

namespace Options

/-- No options. -/
def empty : Options := ⟨none, none⟩

/-- The options with the value of one more; none if it was given before, or if it is a path and
    empty. -/
def give? (o : Options) (flag : Flag) (value : Text) : Option Options :=
  match flag, o.config, o.bind with
  | .config, none, _ => if value.isEmpty then none else some { o with config := some value }
  | .bind, _, none => some { o with bind := some value }
  | _, _, _ => none

end Options

/-! ## Single arguments -/

/-- One argument. -/
inductive Item where
  /-- A text that is no option. -/
  | plain (t : Text)
  /-- The mark behind which no options stand. -/
  | mark
  /-- An option, with its value if that is attached. -/
  | option (flag : Flag) (value : Option Text)
  | help
  | version
  | unknown
  deriving Repr, DecidableEq

namespace Item

/-- A long option. -/
def ofLong (name : Text) (value : Option Text) : Item :=
  if name = "config".toList then option .config value
  else if name = "bind".toList then option .bind value
  else if name = "help".toList ∧ value = none then help
  else if name = "version".toList ∧ value = none then version
  else unknown

/-- The value that is attached to a short option. -/
def attached (t : Text) : Option Text :=
  if t.isEmpty then none else some ((dropStart? ['='] t).getD t)

/-- A short option and what stands behind its letter. -/
def ofShort (letter : Char) (t : Text) : Item :=
  if letter = 'c' then option .config (attached t)
  else if letter = 'b' then option .bind (attached t)
  else if letter = 'h' then help
  else if letter = 'V' then version
  else unknown

/-- Reads one argument. -/
def ofText : Text → Item
  | '-' :: '-' :: [] => mark
  | '-' :: '-' :: t =>
    match cut? '=' t with
    | some (name, value) => ofLong name (some value)
    | none => ofLong t none
  | '-' :: letter :: t => ofShort letter t
  | t => plain t

end Item

/-! ## All arguments -/

/-- Reads arguments behind the given options; `waiting` is an option without its value yet. -/
def read (o : Options) (waiting : Option Flag) : List Text → Invocation
  | [] => if waiting.isSome then .refused else .start o
  | a :: as =>
    match Item.ofText a, waiting with
    | .plain t, some flag =>
      match o.give? flag t with
      | some o => read o none as
      | none => .refused
    | .option flag (some t), none =>
      match o.give? flag t with
      | some o => read o none as
      | none => .refused
    | .option flag none, none => read o (some flag) as
    | .help, none => .help
    | .version, none => .version
    | .mark, none => if as.isEmpty then .start o else .refused
    | _, _ => .refused

/-- What the arguments of a command line ask for. -/
def Invocation.ofArguments (args : List Text) : Invocation := read .empty none args

/-! ## Texts -/

/-- The answer to a question for help. -/
def helpText : Text :=
  ("Expose pooled solution sessions over REST\n\n" ++
    "Usage: rest-gateway [OPTIONS]\n\n" ++
    "Options:\n" ++
    "  -c, --config <CONFIG>  Path to the TOML configuration file. Watched for changes\n" ++
    "  -b, --bind <BIND>      Override the listener bind address\n" ++
    "  -h, --help             Print help\n" ++
    "  -V, --version          Print version\n").toList

/-- The answer to a question for the version. -/
def versionText : Text := "rest-gateway 0.1.0\n".toList

end SessionGateway.CommandLine
