/-
  Decoding — request bodies as payloads.

  JSON and XML become structured values, text a string, a form one field for each pair,
  and binary bodies stay octets.  A multipart body becomes one field for each part.  A
  part is read by the same rules: its kind is what its type says, text if it has no type
  and octets if the type is not recognised; its charset is UTF-8 unless it declares one;
  and a part without content is null.

  The recursion into parts ends because a part is shorter than the body it comes from.
-/
import SessionGateway.Json.Parser
import SessionGateway.Media.Kind
import SessionGateway.Multipart.Boundary
import SessionGateway.Multipart.Parts
import SessionGateway.Payload.Basic
import SessionGateway.Text.Charset
import SessionGateway.Text.Percent
import SessionGateway.Xml.Reading

namespace SessionGateway

/-- Why a body cannot be decoded. -/
inductive DecodingFault where
  /-- The kind is not one that is read. -/
  | unsupported
  | json
  | xml (fault : Xml.Fault)
  | multipart
  deriving DecidableEq, Repr

/-- What a fault says. -/
def DecodingFault.message : DecodingFault → Text
  | unsupported => "unsupported content type".toList
  | json => "invalid json".toList
  | xml fault => "invalid xml: ".toList ++ fault.message
  | multipart => "invalid multipart body".toList

namespace Payload

/-- The fields of a form post. -/
def ofForm (t : Text) : Payload :=
  .fields ((Form.pairs t).map fun (name, t) =>
    ⟨some name, none, some "text/plain".toList, none, ofText t⟩)

/-- Decodes a body that is one piece. -/
def ofBody (kind : Kind) (body : Bytes) (charset : Charset) : Except DecodingFault Payload :=
  match kind with
  | .json =>
    match Json.parse? (charset.decode body) with
    | some v => .ok (.value v)
    | none => .error .json
  | .xml =>
    match Xml.read (charset.decode body) with
    | .ok v => .ok (.value v)
    | .error fault => .error (.xml fault)
  | .text => .ok (ofText (charset.decode body))
  | .form => .ok (ofForm (charset.decode body))
  | .binary => .ok (.bytes body)
  | .multipart | .other => .error .unsupported

/-- The kind of a part by the type it declares. -/
def partKind : Option Text → Kind
  | none => .text
  | some type => (Kind.ofHeader (some type)).orElse .binary

/-- Decodes a body of parts divided by a boundary. -/
def ofParts (boundary : Text) (body : Bytes) : Except DecodingFault Payload := do
  let split := Multipart.Parts.ofBody (Utf8.encode boundary) body
  let fields ← split.parts.attach.mapM fun ⟨part, _⟩ => do
    let type := part.contentType?
    let declared := type.bind Media.charset?
    let kind := partKind type
    let v ←
      if part.body.isEmpty then pure null
      else if kind = .multipart then
        match Multipart.boundary? (type.getD []) with
        | some inner => ofParts inner part.body
        | none => throw .multipart
      else ofBody kind part.body ((declared.map Charset.ofName).getD .utf8)
    pure ⟨part.name?, part.fileName?, type.map Media.essence, declared, v⟩
  if split.closed then pure (.fields fields) else throw .multipart
termination_by body.length
decreasing_by exact Multipart.Parts.length_body_lt (by assumption)

/-- Decodes a body of the given kind; the header declares the boundary of a multipart body. -/
def decode (kind : Kind) (header : Option Text) (body : Bytes) (charset : Charset) :
    Except DecodingFault Payload :=
  match kind with
  | .multipart =>
    match Multipart.boundary? (header.getD []) with
    | some boundary => ofParts boundary body
    | none => .error .multipart
  | _ => ofBody kind body charset

end Payload

end SessionGateway
