/-
  Header names — the names that the gateway reads and writes, in small letters.
-/
import SessionGateway.Text.Basic

namespace SessionGateway.HeaderName

def accept : Text := "accept".toList
def allow : Text := "allow".toList
def authorization : Text := "authorization".toList
def cacheControl : Text := "cache-control".toList
def challenge : Text := "www-authenticate".toList
def contentLength : Text := "content-length".toList
def contentType : Text := "content-type".toList
def expires : Text := "expires".toList
def origin : Text := "origin".toList
def pragma : Text := "pragma".toList

/-- The header that asks for a session without debugger hooks. -/
def nodebug : Text := "ws.nodebug".toList

def allowCredentials : Text := "access-control-allow-credentials".toList
def allowHeaders : Text := "access-control-allow-headers".toList
def allowMethods : Text := "access-control-allow-methods".toList
def allowOrigin : Text := "access-control-allow-origin".toList
def exposeHeaders : Text := "access-control-expose-headers".toList
def maxAge : Text := "access-control-max-age".toList
def requestHeaders : Text := "access-control-request-headers".toList
def requestMethod : Text := "access-control-request-method".toList

end SessionGateway.HeaderName
