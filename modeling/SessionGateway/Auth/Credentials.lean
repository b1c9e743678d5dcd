/-
  Credentials — the user and password that a request carries.

  They stand in the first authorization header, as `Basic` and the Base64 text of the
  UTF-8 octets of user, colon and password.  The user ends at the first colon; neither
  part may be blank.
-/
import SessionGateway.Http.Header
import SessionGateway.Http.Names
import SessionGateway.Text.Base64
import SessionGateway.Text.Blank

namespace SessionGateway

/-- A user and a password. -/
structure Credentials where
  user : Text
  password : Text
  deriving Repr, DecidableEq

namespace Credentials

/-- The scheme, with the space behind it. -/
def scheme : Text := "basic ".toList

/-- Whether a text is white space alone. -/
def isBlank (t : Text) : Bool := (Text.trim t).isEmpty

/-- The credentials of a text `user:password`. -/
def ofPair? (t : Text) : Option Credentials :=
  (cut? ':' t).bind fun (user, password) =>
    if isBlank user || isBlank password then none else some ⟨user, password⟩

/-- The credentials of an authorization header. -/
def ofHeader? (t : Text) : Option Credentials :=
  if Text.sameLetters (t.take scheme.length) scheme then
    ((Base64.decode? (Text.trim (t.drop scheme.length))).bind Utf8.decode?).bind ofPair?
  else none

/-- The credentials that a request carries. -/
def ofHeaders? (h : Headers) : Option Credentials :=
  (h.text? HeaderName.authorization).bind ofHeader?

end Credentials

end SessionGateway
