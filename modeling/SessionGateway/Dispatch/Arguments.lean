/-
  Arguments — what a request hands to an operation.

  First comes the decoded body, then the remaining segments of the path, and last an
  object of the query parameters, each name with the list of its values.  That object is
  there only if there is a query, or if the authentication of the request gave a value,
  which stands in it under a name of its own.
-/
import SessionGateway.Payload.Basic
import SessionGateway.Text.Percent

namespace SessionGateway.Arguments

/-- The name under which the value of the authentication stands. -/
def authenticateKey : Text := "ws_authenticate".toList

/-- Adds a value to the list under a name. -/
def addValue (ms : Json.Members) (name value : Text) : Json.Members :=
  match ms.get? name with
  | some (.array values) => ms.insert name (.array (values ++ [.string value]))
  | _ => ms.insert name (.array [.string value])

/-- The parameters of a query: each name, in the order of first appearance, with its values. -/
def queryMap (query : Text) : Json.Members :=
  (Form.pairs query).foldl (fun ms (name, value) => addValue ms name value) []

/-- The first value of a query parameter, unless it is empty. -/
def queryParam? (query : Option Text) (name : Text) : Option Text :=
  (query.bind fun q => (Form.pairs q).lookup name).filter (!·.isEmpty)

/-- The object of the query parameters and of the value that the authentication gave. -/
def parameters (query : Option Text) (extra : Option Payload) : Json.Members :=
  let ms := (query.map queryMap).getD []
  match extra with
  | some p => ms.insert authenticateKey (.array [p.toJson])
  | none => ms

/-- The arguments of an operation. -/
def build (body : Option Payload) (segments : List Text) (query : Option Text)
    (extra : Option Payload) : List Payload :=
  let query := query.filter (!·.isEmpty)
  body.toList ++ segments.map Payload.ofText ++
    if query.isSome ∨ extra.isSome then [.value (.object (parameters query extra))] else []

end SessionGateway.Arguments
