/-
  Requests — what a client sends.

  The target is kept as received.  Its path ends at the first question mark, and what
  follows that is the query; a fragment belongs to neither.  A target with a scheme has
  its path behind the authority.
-/
import SessionGateway.Http.Header
import SessionGateway.Text.Blank

namespace SessionGateway

/-- A request without its body. -/
structure RequestHead where
  method : Text
  target : Text
  headers : Headers
  deriving Repr

/-- A request. -/
structure Request extends RequestHead where
  body : Bytes
  deriving Repr

namespace RequestHead

/-- The target without its fragment. -/
def bare (r : RequestHead) : Text := r.target.takeWhile (· != '#')

/-- What follows an authority; an empty path is the root. -/
def rooted (t : Text) : Text := if t.head? = some '/' then t else '/' :: t

/-- The scheme and authority of a target, if it has them, and the rest. -/
def splitAuthority (t : Text) : Option (Text × Text) × Text :=
  if t.head? = some '/' then (none, t)
  else
    match cutAt? "://".toList t with
    | some (scheme, rest) =>
      let isAuthority := fun c => c != '/' && c != '?'
      (some (scheme, rest.takeWhile isAuthority), rooted (rest.dropWhile isAuthority))
    | none => (none, t)

/-- A scheme; the two of the web are written in small letters. -/
def schemeText (scheme : Text) : Text :=
  let small := Text.lower scheme
  if small = "http".toList ∨ small = "https".toList then small else scheme

/-- The address that is asked for: the target without its fragment, and with a path. -/
def address (r : RequestHead) : Text :=
  match splitAuthority r.bare with
  | (some (scheme, authority), rest) => schemeText scheme ++ "://".toList ++ authority ++ rest
  | (none, rest) => rest

/-- The path, still with its escapes. -/
def path (r : RequestHead) : Text := (splitAuthority r.bare).2.takeWhile (· != '?')

/-- The query, still with its escapes. -/
def query? (r : RequestHead) : Option Text := (cut? '?' r.bare).map (·.2)

/-- The header that names a request. -/
def idHeader : Text := "x-request-id".toList

/-- The name of the request, if it has a readable one. -/
def id (r : RequestHead) : Text := (r.headers.text? idHeader).getD "unknown".toList

/-- Whether a request came over a secure channel, to the gateway or to a proxy before it. -/
def isSecure (r : RequestHead) (tls : Bool) : Bool :=
  tls || (r.headers.text? "x-forwarded-proto".toList).any fun proto =>
    Text.sameLetters (Text.trim proto) "https".toList

end RequestHead

end SessionGateway
