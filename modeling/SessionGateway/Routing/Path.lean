/-
  Paths — what the path of a request names.

  A path is `/service/key/scope` and any number of arguments, behind the path at which the
  gateway is mounted.  Empty segments at the end are dropped; those in the middle stay.
-/
import SessionGateway.Text.Basic

namespace SessionGateway

/-- What a path names. -/
structure RequestPath where
  /-- The key of the session: the name of a solution. -/
  sessionKey : Text
  /-- The scope on which the operation runs. -/
  scope : Text
  /-- The remaining segments. -/
  arguments : List Text
  deriving DecidableEq, Repr

namespace RequestPath

/-- What follows the mount path; none if the path lies outside of it. -/
def stripMount? (mount path : Text) : Option Text :=
  if mount = [] then some path
  else (dropStart? mount path).filter fun rest => rest.isEmpty || rest.head? == some '/'

/-- The segments of a path without the empty ones at its end. -/
def segments (path : Text) : List Text := trimEndBy List.isEmpty (path.splitOn '/')

/-- Reads a path of the given service. -/
def parse? (service path : Text) : Option RequestPath :=
  match segments path with
  | _ :: marker :: key :: scope :: arguments =>
    if marker = service then some ⟨key, scope, arguments⟩ else none
  | _ => none

/-- Reads a path behind a mount path. -/
def ofMounted? (mount service path : Text) : Option RequestPath :=
  (stripMount? mount path).bind (parse? service)

end RequestPath

end SessionGateway
