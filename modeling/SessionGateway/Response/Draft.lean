/-
  Drafts — responses while they are put together.

  Headers that were set before a failure stay, but for the type of the body.  A failure
  has no body unless the operation supplied one, whose type is then guessed.
-/
import SessionGateway.Http.Header
import SessionGateway.Http.Names
import SessionGateway.Payload.Encoding
import SessionGateway.Response.Error

namespace SessionGateway

/-- A response under construction. -/
structure Draft where
  status : Nat
  headers : Headers
  body : Bytes
  deriving Repr, DecidableEq

namespace Draft

/-- The draft from which every response starts. -/
def new : Draft := ⟨200, .empty, []⟩

/-- Sets a header to a text; one that no value can write is dropped. -/
def setHeader (d : Draft) (name t : Text) : Draft := { d with headers := d.headers.set name t }

/-- Adds a header with a text; one that no value can write is dropped. -/
def addHeader (d : Draft) (name t : Text) : Draft := { d with headers := d.headers.add name t }

/-- Forbids to keep the response. -/
def noCache (d : Draft) : Draft :=
  ((d.setHeader HeaderName.cacheControl "no-cache, no-store, must-revalidate".toList).setHeader
    HeaderName.pragma "no-cache".toList).setHeader HeaderName.expires "0".toList

/-- Takes an encoded body. -/
def send (d : Draft) (e : Encoded) : Draft :=
  { d.setHeader HeaderName.contentType e.contentType with body := e.body }

/-- A status without a body. -/
def statusOnly (d : Draft) (status : Nat) : Draft :=
  ⟨status, d.headers.erase HeaderName.contentType, []⟩

/-- The challenge for a realm. -/
def challenge (realm : Text) : Text :=
  "Basic realm=\"".toList ++ Text.without '\x22' realm ++ ['\x22']

/-- The type of a body that an operation supplied with a failure. -/
def guessedType (body : Bytes) : Text :=
  match Kind.guess body .text with
  | .xml => "application/xml".toList
  | .json => "application/json".toList
  | _ => "text/plain".toList

/-- Adds the challenge of a failure to prove one's identity. -/
def challenged (d : Draft) : GatewayError → Draft
  | .unauthenticated realm => d.setHeader HeaderName.challenge (challenge realm)
  | _ => d

/-- Turns a failure into the response. -/
def fail (d : Draft) (e : GatewayError) : Draft :=
  let d := (d.statusOnly e.status).challenged e
  match e.explicitBody? with
  | some t =>
    let body := Utf8.encode t
    { d.setHeader HeaderName.contentType (guessedType body) with body }
  | none => d

end Draft

end SessionGateway
