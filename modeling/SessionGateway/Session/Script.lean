/-
  Scripts — operations as lists of actions.

  A script runs its actions in order until one of them ends the operation; running off
  the end gives null.  `Script.behaviour` is what a script does, and it leaves the shared
  state alone.
-/
import SessionGateway.Session.Bridge
import SessionGateway.Session.Solution
import SessionGateway.Text.Numeral

namespace SessionGateway

/-- One step of a script. -/
inductive Action where
  | setProperty (name t : Text)
  | unsetProperty (name : Text)
  /-- Adds one to the number in a property. -/
  | count (name : Text)
  | contentType (t : Text)
  | charset (t : Text)
  /-- Runs other actions if an argument is the given text. -/
  | ifArgument (index : Nat) (t : Text) (actions : List Action)
  | give (result : Payload)
  /-- Gives the list of all arguments. -/
  | giveArguments
  | giveArgument (index : Nat)
  | giveProperties
  | giveHeader (name : Text)
  /-- Gives the method and the target of the request. -/
  | giveRequest
  | throw (v : Json)
  | engine (message : Text)
  | crash (message : Text)
  deriving Repr

/-- The actions of an operation. -/
abbrev Script := List Action

namespace Script
variable {σ : Type}

/-- The text of a number that is one more than the one a property holds; a property that is absent
    or holds no number of thirty-two bits counts as zero. -/
def counted (t : Option Text) : Text :=
  let n := (t.bind (Numeral.bounded? Numeral.max32)).getD 0
  Numeral.decimal ((n + 1) % (Numeral.max32 + 1))

/-- Whether an argument is the given text. -/
def argumentIs (args : List Payload) (index : Nat) (t : Text) : Bool :=
  match args[index]? with
  | some (.value (.string s)) => s == t
  | _ => false

/-- The method and the target of a request. -/
def requestLine (r : RequestHead) : Json := .array [.string r.method, .string r.address]

/-- A text as a value, or null. -/
def textOrNull (t : Option Text) : Json := (t.map Json.string).getD .null

mutual

/-- Runs one action; it may end the operation. -/
def step (request : RequestHead) (args : List Payload) (desk : Desk σ) :
    Action → Option Ending × Desk σ
  | .setProperty name t => (none, { desk with properties := desk.properties.insert name t })
  | .unsetProperty name => (none, { desk with properties := desk.properties.erase name })
  | .count name =>
    (none, { desk with
      properties := desk.properties.insert name (counted (desk.properties.get? name)) })
  | .contentType t =>
    (none, { desk with overrides := { desk.overrides with contentType := some t } })
  | .charset t => (none, { desk with overrides := { desk.overrides with charset := some t } })
  | .ifArgument index t actions =>
    if argumentIs args index t then steps request args desk actions else (none, desk)
  | .give result => (some (.returned result), desk)
  | .giveArguments => (some (.returned (.value (.array (args.map Payload.toJson)))), desk)
  | .giveArgument index => (some (.returned (args[index]?.getD .null)), desk)
  | .giveProperties => (some (.returned (.value desk.properties.toJson)), desk)
  | .giveHeader name =>
    (some (.returned (.value (textOrNull (request.headers.text? (Text.lower name))))), desk)
  | .giveRequest => (some (.returned (.value (requestLine request))), desk)
  | .throw v => (some (.failed (.thrown v)), desk)
  | .engine message => (some (.failed (.engine message)), desk)
  | .crash message => (some (.crashed message), desk)

/-- Runs actions until one ends the operation. -/
def steps (request : RequestHead) (args : List Payload) (desk : Desk σ) :
    List Action → Option Ending × Desk σ
  | [] => (none, desk)
  | a :: as =>
    match step request args desk a with
    | (some ending, desk) => (some ending, desk)
    | (none, desk) => steps request args desk as

end

/-- What a script does. -/
def behaviour (s : Script) : Behaviour σ := fun request args desk =>
  match steps request args desk s with
  | (some ending, desk) => (ending, desk)
  | (none, desk) => (.returned .null, desk)

end Script

end SessionGateway
