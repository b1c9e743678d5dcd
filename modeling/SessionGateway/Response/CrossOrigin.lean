/-
  Cross-origin headers — what lets a page of another origin read a response.

  Every response carries them, failures included.  A request for a session without
  debugger hooks carries a header of its own; a preflight can only announce it.
-/
import SessionGateway.Http.Request
import SessionGateway.Response.Draft
import SessionGateway.Session.Bridge

namespace SessionGateway.CrossOrigin

/-- Whether a request asks for a session without debugger hooks. -/
def asksNodebug (r : RequestHead) : Bool :=
  let announced := (r.headers.text? HeaderName.requestHeaders).any fun t =>
    occursIn HeaderName.nodebug t.lower
  (r.method == "OPTIONS".toList && announced) || r.headers.has HeaderName.nodebug

/-- The methods that a preflight may use. -/
def methods : Text := "GET, DELETE, POST, PUT, PATCH, OPTIONS".toList

/-- How long a preflight holds, in seconds: twenty days. -/
def age : Text := "1728000".toList

/-- The headers of the response that a page may read. -/
def exposed (nodebug : Bool) : Text :=
  if nodebug then HeaderName.nodebug ++ ", ".toList ++ Properties.headerName
  else Properties.headerName

/-- Adds the cross-origin headers for a request. -/
def apply (d : Draft) (h : Headers) (nodebug : Bool) : Draft :=
  let d := d.setHeader HeaderName.allowOrigin ((h.text? HeaderName.origin).getD ['*'])
  let d := d.setHeader HeaderName.maxAge age
  let d := d.setHeader HeaderName.allowCredentials "true".toList
  let d := if h.has HeaderName.requestMethod then d.setHeader HeaderName.allowMethods methods else d
  let d := d.setHeader HeaderName.exposeHeaders (exposed nodebug)
  match h.text? HeaderName.requestHeaders with
  | some t => d.setHeader HeaderName.allowHeaders t
  | none => d

end SessionGateway.CrossOrigin
