/-
  Encoding — results as bodies.

  * `Encoded.structured` writes a result in a kind: JSON, which a callback turns into a
    call of it, XML behind a declaration, or plain text;
  * `Encoded.preset` keeps the type that an operation chose and writes the form it asks
    for; raw octets stay as they are;
  * `Encoded.raw` finds a type for raw octets: the one their first octets show, else the
    first concrete one that the client accepts, else the general one.
-/
import SessionGateway.Media.Kind
import SessionGateway.Media.Signature
import SessionGateway.Payload.Basic
import SessionGateway.Text.Charset
import SessionGateway.Xml.Writing

namespace SessionGateway

/-- A body and its type. -/
structure Encoded where
  contentType : Text
  body : Bytes
  deriving Repr, DecidableEq

/-- Why a result has no body. -/
inductive EncodingFault where
  /-- The kind cannot hold a structured result. -/
  | notRepresentable (kind : Kind)
  deriving DecidableEq, Repr

/-- What a fault says. -/
def EncodingFault.message : EncodingFault → Text
  | notRepresentable kind => "cannot write a structured result as ".toList ++ kind.label

namespace Encoded

/-- The JSON text of a result; null is empty. -/
def jsonText (result : Payload) : Text := if result.isNull then [] else result.toJson.text

/-- The declaration in front of an XML body. -/
def declaration (charset : Charset) : Text :=
  "<?xml version=\"1.0\" encoding=\"".toList ++ charset.name ++ "\"?>\n".toList

/-- The text of a result in a kind; any kind but XML and text is written as JSON. -/
def structuredText (result : Payload) (kind : Kind) (charset : Charset) (callback : Option Text) :
    Text :=
  match kind with
  | .xml => declaration charset ++ Xml.write result.toJson
  | .text => result.text
  | _ =>
    match callback with
    | some name => name ++ '(' :: (jsonText result ++ [')'])
    | none => jsonText result

/-- A structured result in a kind. -/
def structured (result : Payload) (kind : Kind) (charset : Charset) (callback : Option Text) :
    Except EncodingFault Encoded :=
  match kind.responseType? with
  | none => .error (.notRepresentable kind)
  | some type =>
    .ok ⟨type ++ ";charset=".toList ++ charset.name,
      charset.encode (structuredText result kind charset callback)⟩

/-- The text of a result in the form that a type asks for. -/
def presetText (result : Payload) (contentType : Text) : Text :=
  match Kind.ofHeader (some contentType) with
  | .xml => Xml.write result.toJson
  | .json => jsonText result
  | _ => result.text

/-- A result whose type is already chosen. -/
def preset (result : Payload) (contentType : Text) (charset : Charset) : Encoded :=
  match result with
  | .bytes bs => ⟨contentType, bs⟩
  | _ => ⟨contentType, charset.encode (presetText result contentType)⟩

/-- The type of octets of which nothing is known. -/
def octetStream : Text := "application/octet-stream".toList

/-- The type of raw octets. -/
def rawType (body : Bytes) (accept : Option Text) : Text :=
  ((Signature.sniff? body).or (accept.bind Media.firstConcrete?)).getD octetStream

/-- Raw octets with a type. -/
def raw (body : Bytes) (accept : Option Text) : Encoded := ⟨rawType body accept, body⟩

end Encoded

end SessionGateway
