/-
  Reading XML — a document as a JSON value.

  An element becomes a member of the element around it.  Attributes and child elements
  are members of its object, and members of one name gather in an array.  Text beside
  attributes or children stands under `content`; an element with text alone is the value
  of its text, and one with nothing in it the empty string.

  `Xml.read` runs a machine over the pieces of a document.  Its state are the elements
  that are open, and the members of the document itself.
-/
import SessionGateway.Xml.Markup
import SessionGateway.Xml.Scalar

namespace SessionGateway.Xml

/-- The name under which an element's text stands beside attributes and children. -/
def contentKey : Text := "content".toList

/-- Adds a value under a name: the second and every later one of a name go to an array. -/
def accumulate (name : Text) (value : Json) (ms : Json.Members) : Json.Members :=
  match ms.get? name with
  | none => ms.insert name value
  | some (.array items) => ms.insert name (.array (items ++ [value]))
  | some first => ms.insert name (.array [first, value])

/-- The value of an element with the given members. -/
def elementValue (ms : Json.Members) : Json :=
  match ms with
  | [] => .string []
  | [(name, value)] => if name = contentKey then value else .object ms
  | _ => .object ms

/-- The members that the attributes of a tag give. -/
def ofAttributes (attributes : List (Text × Text)) : Json.Members :=
  attributes.foldl (fun ms (name, value) => accumulate name (coerce value) ms) []

/-- Why a document cannot be read. -/
inductive Fault where
  /-- The text is no XML, or a closing tag does not fit. -/
  | malformed
  /-- The document ends inside an element of the given name. -/
  | unclosed (name : Text)
  deriving DecidableEq, Repr

/-- What a fault says; a malformed document has no text of its own. -/
def Fault.message : Fault → Text
  | malformed => "malformed document".toList
  | unclosed name => "unclosed element <".toList ++ name ++ ['>']

/-- An element that is open. -/
structure Element where
  name : Text
  members : Json.Members

/-- The open elements, the innermost first, inside the members of the document. -/
structure Builder where
  root : Json.Members
  opened : List Element

namespace Builder

/-- Adds a value to the innermost element. -/
def add (b : Builder) (name : Text) (value : Json) : Builder :=
  match b.opened with
  | [] => { b with root := accumulate name value b.root }
  | e :: es => { b with opened := { e with members := accumulate name value e.members } :: es }

/-- Takes one piece; none if it closes an element that is not the innermost one. -/
def step (b : Builder) : Markup → Option Builder
  | .opening name attributes => some { b with opened := ⟨name, ofAttributes attributes⟩ :: b.opened }
  | .empty name attributes => some (b.add name (elementValue (ofAttributes attributes)))
  | .closing name =>
    match b.opened with
    | e :: es =>
      if e.name = name then some ({ b with opened := es }.add e.name (elementValue e.members))
      else none
    | [] => none
  | .text t => some (b.add contentKey (coerce t))
  | .unparsed t => some (b.add contentKey (.string t))
  | .aside => some b

/-- The value of the document, if no element is open: text outside every element is dropped. -/
def finish (b : Builder) : Except Fault Json :=
  match b.opened with
  | [] => .ok (.object (b.root.swapRemove contentKey))
  | e :: _ => .error (.unclosed e.name)

end Builder

/-- The value of a document. -/
def read (t : Text) : Except Fault Json :=
  match (Markup.ofText? t).bind fun ms => ms.foldlM Builder.step ⟨[], []⟩ with
  | some b => b.finish
  | none => .error .malformed

end SessionGateway.Xml
