/-
  Solutions and sessions — the business logic behind the gateway.

  A solution is a named set of scopes, each with some of the operations.  What an
  operation does is a `Behaviour`: it sees the request and its arguments, may change the
  properties of the session, the overrides of the response and a state `σ` that all
  sessions share, and ends in a result, an error or a crash.  The request is for reading only:
  what an operation may write of an exchange is the overrides, and nothing that it does to the
  address or the headers of its request is seen by what comes after it.

  A session is a running solution with the properties of its client.
-/
import SessionGateway.Http.Request
import SessionGateway.Payload.Basic
import SessionGateway.Session.Operation
import SessionGateway.Session.Properties

namespace SessionGateway

/-- What an operation asks of the response: a type and a charset of its own. -/
structure Overrides where
  contentType : Option Text
  charset : Option Text
  deriving Repr, DecidableEq

/-- No overrides. -/
def Overrides.none : Overrides := ⟨.none, .none⟩

/-- What an operation may read and change. -/
structure Desk (σ : Type) where
  properties : Properties
  overrides : Overrides
  shared : σ

/-- How an operation ends. -/
inductive Ending where
  | returned (result : Payload)
  | failed (error : InvocationError)
  /-- The operation broke off without an answer. -/
  | crashed (message : Text)
  deriving Repr

/-- What an operation does. -/
abbrev Behaviour (σ : Type) := RequestHead → List Payload → Desk σ → Ending × Desk σ

/-! ## Solutions -/

/-- A set of scopes with their operations. -/
structure Solution (σ : Type) where
  name : Text
  loaded : Bool
  scopes : List (Text × List (Operation × Behaviour σ))

namespace Solution
variable {σ : Type}

/-- A loaded solution without scopes. -/
def new (name : Text) : Solution σ := ⟨name, true, []⟩

/-- Gives a scope operations of its own, behind those that it has. -/
def extend (scopes : List (Text × List (Operation × Behaviour σ))) (scope : Text)
    (more : List (Operation × Behaviour σ)) : List (Text × List (Operation × Behaviour σ)) :=
  match scopes with
  | [] => [(scope, more)]
  | s :: ss => if s.1 = scope then (scope, s.2 ++ more) :: ss else s :: extend ss scope more

/-- Declares a scope. -/
def scope (s : Solution σ) (scope : Text) : Solution σ :=
  { s with scopes := extend s.scopes scope [] }

/-- Gives an operation on a scope its behaviour, in place of the one it had. -/
def operation (s : Solution σ) (scope : Text) (o : Operation) (b : Behaviour σ) : Solution σ :=
  let others := s.scopes.map fun e =>
    if e.1 = scope then (e.1, e.2.filter (·.1 != o)) else e
  { s with scopes := extend others scope [(o, b)] }

/-- The solution, marked as one that failed to load. -/
def unloaded (s : Solution σ) : Solution σ := { s with loaded := false }

/-- The behaviour of an operation on a scope. -/
def behaviour? (s : Solution σ) (scope : Text) (o : Operation) : Option (Behaviour σ) :=
  (s.scopes.lookup scope).bind fun operations => operations.lookup o

/-- Whether the solution has an operation on a scope. -/
def existence (s : Solution σ) (scope : Text) (o : Operation) : Existence :=
  if s.loaded then
    match s.scopes.lookup scope with
    | none => .scopeNotFound
    | some operations => if (operations.lookup o).isSome then .found else .notFound
  else .noSolution

theorem existence_eq_found_iff {s : Solution σ} {scope : Text} {o : Operation} :
    s.existence scope o = .found ↔ s.loaded = true ∧ (s.behaviour? scope o).isSome := by
  unfold existence behaviour?
  cases s.loaded with
  | false => simp
  | true =>
    cases s.scopes.lookup scope with
    | none => simp
    | some operations => cases h : (operations.lookup o).isSome <;> simp [h]

end Solution

/-! ## Registries -/

/-- The ending of the keys of sessions without debugger hooks. -/
def nodebugSuffix : Text := ":nodebug".toList

/-- The registered solutions; of one name the last counts. -/
structure Registry (σ : Type) where
  solutions : List (Solution σ)

namespace Registry
variable {σ : Type}

/-- Registers a solution. -/
def register (r : Registry σ) (s : Solution σ) : Registry σ :=
  ⟨s :: r.solutions.filter (·.name != s.name)⟩

/-- The registry of the given solutions. -/
def ofList (ss : List (Solution σ)) : Registry σ := ss.foldl register ⟨[]⟩

/-- The name of the solution that a session key asks for. -/
def solutionName (key : Text) : Text := (dropEnd? nodebugSuffix key).getD key

/-- The solution that a session key asks for. -/
def get? (r : Registry σ) (key : Text) : Option (Solution σ) :=
  r.solutions.find? fun s => s.name == solutionName key

end Registry

/-! ## Sessions -/

/-- A running solution. -/
structure Session (σ : Type) where
  solution : Solution σ
  properties : Properties

namespace Session
variable {σ : Type}

/-- A fresh session. -/
def new (s : Solution σ) : Session σ := ⟨s, .empty⟩

/-- The error of an operation that a scope does not have. -/
def missing (scope : Text) (o : Operation) : InvocationError :=
  .engine (o.functionName ++ " not found on ".toList ++ scope)

/-- Runs an operation. -/
def invoke (s : Session σ) (scope : Text) (o : Operation) (request : RequestHead)
    (args : List Payload) (overrides : Overrides) (shared : σ) :
    Ending × Session σ × Overrides × σ :=
  match s.solution.behaviour? scope o with
  | none => (.failed (missing scope o), s, overrides, shared)
  | some behaviour =>
    let (ending, desk) := behaviour request args ⟨s.properties, overrides, shared⟩
    (ending, { s with properties := desk.properties }, desk.overrides, desk.shared)

end Session

end SessionGateway
