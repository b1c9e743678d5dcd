/-
  The bridge between properties and messages.

  A request carries properties in a header, as a JSON object, or else in one cookie for
  each property; the header wins, and the two are never merged.  A response carries both.

  * `Properties.ofHeaders?` are the properties of a request; there are none to be had only
    if the header is there and holds no JSON object;
  * `Properties.writeTo` adds the header and the cookies; a value that is no plain token is
    written in Base64 behind a marker, and a name that is no token gets no cookie.
-/
import SessionGateway.Http.Header
import SessionGateway.Json.Parser
import SessionGateway.Json.Printer
import SessionGateway.Session.Properties
import SessionGateway.Text.Base64
import SessionGateway.Text.Blank

namespace SessionGateway.Properties

/-- The header that carries the properties. -/
def headerName : Text := "ws.userproperties".toList

/-- What the names of the cookies begin with. -/
def cookiePrefix : Text := "ws.userproperty.".toList

/-- What a cookie value in Base64 begins with. -/
def marker : Text := "B64p_".toList

/-! ## From requests -/

/-- The properties of a JSON object: strings as they are, other values as their text. -/
def ofMembers (ms : Json.Members) : Properties := ofList (ms.map fun (k, v) => (k, v.plain))

/-- The properties in the octets of the header. -/
def ofHeaderValue? (value : Bytes) : Option Properties :=
  match Json.parseBytes? value with
  | some (.object ms) => some (ofMembers ms)
  | _ => none

/-- The text without one pair of quotation marks around it. -/
def unquote (t : Text) : Text :=
  ((dropStart? ['\x22'] t).bind (dropEnd? ['\x22'])).getD t

/-- The name and value of a cookie. -/
def cookie? (pair : Text) : Option (Text × Text) :=
  (cut? '=' (Text.trim pair)).map fun (name, value) =>
    (Text.trim name, unquote (Text.trim value))

/-- The cookies of a request, in order. -/
def cookies (h : Headers) : List (Text × Text) :=
  ((h.getAll "cookie".toList).filterMap Header.text?).flatMap fun line =>
    (line.splitOn ';').filterMap cookie?

/-- The text that the value of a cookie stands for; what is no Base64 stands for itself. -/
def cookieText (value : Text) : Text :=
  match (dropStart? marker value).bind Base64.decode? with
  | some bs => Utf8.decodeLossy bs
  | none => value

/-- The properties that the cookies of a request carry. -/
def ofCookies (h : Headers) : Properties :=
  ofList ((cookies h).filterMap fun (name, value) =>
    (dropStart? cookiePrefix name).map fun key => (key, cookieText value))

/-- The properties that a request carries; none if its header cannot be read. -/
def ofHeaders? (h : Headers) : Option Properties :=
  match h.get? headerName with
  | some value => ofHeaderValue? value
  | none => some (ofCookies h)

/-! ## To responses -/

/-- The properties as a JSON object. -/
def toJson (p : Properties) : Json := .object (p.entries.map fun (k, v) => (k, .string v))

/-- Whether a name can be that of a cookie. -/
def isCookieName (name : Text) : Bool := !name.isEmpty && name.all Header.isToken

/-- Whether a character may stand in the value of a cookie. -/
def isCookieChar (c : Char) : Bool :=
  let n := c.toNat
  n == 0x21 || (0x23 ≤ n && n ≤ 0x2B) || (0x2D ≤ n && n ≤ 0x3A) || (0x3C ≤ n && n ≤ 0x5B) ||
    (0x5D ≤ n && n ≤ 0x7E)

/-- The value of the cookie for a text. -/
def cookieValue (t : Text) : Text :=
  if t.all isCookieChar ∧ dropStart? marker t = none then t
  else marker ++ Base64.encode (Utf8.encode t)

/-- The cookie for a property. -/
def setCookie (path : Text) (secure : Bool) (name t : Text) : Text :=
  cookiePrefix ++ name ++ '=' :: (cookieValue t ++ "; Path=".toList ++ path ++
    if secure then "; Secure".toList else [])

/-- Adds the properties to the headers of a response; an empty map adds nothing. -/
def writeTo (p : Properties) (path : Text) (secure : Bool) (h : Headers) : Headers :=
  if p.isEmpty then h
  else
    (p.entries.filter fun e => isCookieName e.1).foldl
      (fun h e => h.add "set-cookie".toList (setCookie path secure e.1 e.2))
      (h.set headerName p.toJson.text)

end SessionGateway.Properties
