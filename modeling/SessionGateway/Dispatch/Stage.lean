/-
  Stages — the state of a request that has a session.

  The work on such a request is a computation over its stage that may halt early: refused
  with an error, or broken off by a crash of an operation.  Whatever halts it, the stage
  stays as it was left.  What is asked of the session is written to the trace.
-/
import SessionGateway.Response.Draft
import SessionGateway.Session.Event
import SessionGateway.Session.Solution

namespace SessionGateway

/-- Why the work on a request halts early. -/
inductive Halt where
  | refused (error : GatewayError)
  | crashed (message : Text)
  deriving Repr

/-- The state of a request that has a session. -/
structure Stage (σ : Type) where
  session : Session σ
  overrides : Overrides
  shared : σ
  draft : Draft
  trace : Trace

/-- Work on a request. -/
abbrev Work (σ α : Type) := ExceptT Halt (StateM (Stage σ)) α

namespace Work
variable {σ : Type}

/-- Gives up with an error. -/
def refuse {α : Type} (e : GatewayError) : Work σ α := throw (.refused e)

/-- Goes on with a value or gives up with an error. -/
def orRefuse {α : Type} : Except GatewayError α → Work σ α
  | .ok a => pure a
  | .error e => refuse e

/-- Changes the draft of the response. -/
def draft (f : Draft → Draft) : Work σ Unit := modify fun s => { s with draft := f s.draft }

/-- Writes an event to the trace. -/
def record (e : Event) : Work σ Unit := modify fun s => { s with trace := s.trace ++ [e] }

/-- Whether the session has an operation on a scope. -/
def existence (scope : Text) (o : Operation) : Work σ Existence := do
  return (← get).session.solution.existence scope o

/-- Replaces the properties of the session. -/
def setProperties (p : Properties) : Work σ Unit := do
  record (.setProperties p)
  modify fun s => { s with session := { s.session with properties := p } }

/-- Runs an operation; a crash of it halts the work. -/
def invoke (scope : Text) (o : Operation) (request : RequestHead) (args : List Payload) :
    Work σ (Except InvocationError Payload) := do
  let s ← get
  record (.invoke scope o args s.session.properties)
  let (ending, session, overrides, shared) :=
    s.session.invoke scope o request args s.overrides s.shared
  modify fun s => { s with session, overrides, shared }
  match ending with
  | .returned result => return .ok result
  | .failed error => return .error error
  | .crashed message => throw (.crashed message)

end Work

end SessionGateway
