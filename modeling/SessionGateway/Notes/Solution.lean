/-
  The notes solution — a note store behind the operations of one scope.

  All sessions share the store.  A note is named by the text of its number; what names no
  note finds nothing, but to update or delete a number is required.
-/
import SessionGateway.Notes.Store
import SessionGateway.Session.Solution
import SessionGateway.Text.Numeral

namespace SessionGateway.NoteStore

/-- The number that an argument is the text of. -/
def idOf? : Payload → Option Nat
  | .value (.string t) => Numeral.bounded? Numeral.max64 t
  | _ => none

/-- The error of an operation that gets no number. -/
def idRequired : InvocationError :=
  .thrown (.array [Json.ofNat 400, .string "note id required".toList])

/-- The body that an operation gets. -/
def bodyOf (args : List Payload) : Json := (args.head?.map Payload.toJson).getD .null

/-! ## Operations -/

/-- The note that the first argument names, or all notes if that is no text. -/
def read (s : NoteStore) (args : List Payload) : Payload :=
  match args.head? with
  | some (.value (.string t)) =>
    .value (((idOf? (.value (.string t))).bind s.get?).getD .null)
  | _ => .value (.array s.values)

/-- Adds a note with the first argument as its body. -/
def add (s : NoteStore) (args : List Payload) : Payload × NoteStore :=
  let (id, s) := s.create (bodyOf args)
  (.value (.object [("id".toList, Json.ofNat id)]), s)

/-- Gives the note that the second argument names the first as its body. -/
def replace (s : NoteStore) (args : List Payload) : Except InvocationError (Payload × NoteStore) :=
  match args[1]?.bind idOf? with
  | none => .error idRequired
  | some id =>
    match s.get? id with
    | some _ =>
      let value := noteValue id (bodyOf args)
      .ok (.value value, s.update id value)
    | none => .ok (.null, s)

/-- Removes the note that the first argument names; the result says whether it was there. -/
def remove (s : NoteStore) (args : List Payload) : Except InvocationError (Payload × NoteStore) :=
  match args.head?.bind idOf? with
  | none => .error idRequired
  | some id => .ok (.value (.bool (s.get? id).isSome), s.erase id)

/-! ## The solution -/

/-- The behaviour of an operation on the store. -/
def behaviour (run : NoteStore → List Payload → Except InvocationError (Payload × NoteStore)) :
    Behaviour NoteStore := fun _ args desk =>
  match run desk.shared args with
  | .ok (result, shared) => (.returned result, { desk with shared })
  | .error e => (.failed e, desk)

/-- The name of the solution. -/
def solutionName : Text := "demo".toList

/-- The scope of the operations. -/
def scope : Text := "notes".toList

/-- The notes solution. -/
def solution : Solution NoteStore :=
  Solution.new solutionName
    |>.operation scope .read (behaviour fun s args => .ok (s.read args, s))
    |>.operation scope .create (behaviour fun s args => .ok (s.add args))
    |>.operation scope .update (behaviour replace)
    |>.operation scope .delete (behaviour remove)

end SessionGateway.NoteStore
