/-
  Operations — what a scope of a solution can be asked to do, and how that fails.

  * `Operation` are the seven operations; each is a function named after it;
  * `InvocationError` is a failure of an operation: a value that it threw, or a failure of
    the engine that runs it.  A thrown status number, alone or first in an array, is an
    explicit status, and the second item of such an array an explicit message;
  * `PoolError` is the reason why there is no session.
-/
import SessionGateway.Json.Printer

namespace SessionGateway

/-- What a scope can be asked to do. -/
inductive Operation where
  | read
  | create
  | update
  | patch
  | delete
  | authenticate
  | responseHeaders
  deriving DecidableEq, Repr

namespace Operation

/-- The name of an operation. -/
def name : Operation → Text
  | read => "read".toList
  | create => "create".toList
  | update => "update".toList
  | patch => "patch".toList
  | delete => "delete".toList
  | authenticate => "authenticate".toList
  | responseHeaders => "response_headers".toList

/-- The name of the function that carries an operation out. -/
def functionName (o : Operation) : Text := "ws_".toList ++ o.name

/-- Every operation. -/
def all : List Operation := [read, create, update, patch, delete, authenticate, responseHeaders]

/-- The operation with the given name. -/
def ofName? (t : Text) : Option Operation := all.find? fun o => o.name == t

@[simp] theorem ofName?_name (o : Operation) : ofName? o.name = some o := by cases o <;> decide

end Operation

/-- Whether a solution has an operation on a scope. -/
inductive Existence where
  /-- The solution is not loaded. -/
  | noSolution
  | scopeNotFound
  | notFound
  | found
  deriving DecidableEq, Repr

/-! ## Failures of operations -/

/-- How an operation fails. -/
inductive InvocationError where
  /-- The operation threw a value. -/
  | thrown (v : Json)
  /-- The engine failed. -/
  | engine (message : Text)
  deriving Repr, BEq

/-- The least and the greatest number that can be a status. -/
def leastStatus : Nat := 100
def greatestStatus : Nat := 999

/-- The status that a value is the number of. -/
def statusOf? : Json → Option Nat
  | .number n =>
    n.whole?.bind fun i =>
      if (leastStatus : Int) ≤ i ∧ i ≤ greatestStatus then some i.toNat else none
  | _ => none

namespace InvocationError

/-- What an error says. -/
def message : InvocationError → Text
  | thrown v => "operation threw ".toList ++ v.text
  | engine t => "engine failure: ".toList ++ t

/-- Whether the error comes from the operation itself. -/
def isUserScript : InvocationError → Bool
  | thrown _ => true
  | engine _ => false

/-- The status that the operation asks for. -/
def status? : InvocationError → Option Nat
  | thrown (.array (v :: _)) => statusOf? v
  | thrown (.array []) => none
  | thrown v => statusOf? v
  | engine _ => none

/-- The message that the operation asks for, beside a status. -/
def explicitMessage? : InvocationError → Option Text
  | thrown (.array (v :: m :: _)) =>
    if (statusOf? v).isSome then
      match m with
      | .null => none
      | _ => some m.plain
    else none
  | _ => none

end InvocationError

/-! ## Failures of the pool -/

/-- Why there is no session. -/
inductive PoolError where
  | exhausted
  | unknownSolution (key : Text)
  | creation (message : Text)
  deriving DecidableEq, Repr

namespace PoolError

/-- What an error says. -/
def message : PoolError → Text
  | exhausted => "no sessions available".toList
  | unknownSolution key => "unknown solution '".toList ++ key ++ ['\x27']
  | creation t => "session creation failed: ".toList ++ t

/-- The short label of an error. -/
def reason : PoolError → Text
  | exhausted => "exhausted".toList
  | unknownSolution _ => "unknown".toList
  | creation _ => "creation".toList

end PoolError

end SessionGateway
