/-
  Directories — who the users are and to which groups they belong.

  `Directory.decide` is the decision for a scope that authenticates nobody by itself: all
  are let in unless the settings name groups; then the credentials must be those of a
  user with one of them.
-/
import SessionGateway.Auth.Credentials
import SessionGateway.Config.Schema
import SessionGateway.Payload.Basic
import SessionGateway.Response.Error

namespace SessionGateway

/-- The outcome of an authentication. -/
inductive AuthDecision where
  /-- The request goes on; an operation may have given it a value. -/
  | allowed (extra : Option Payload)
  /-- The client is unknown and is challenged. -/
  | unauthenticated (realm : Text)
  /-- The client is known and not let in. -/
  | unauthorized (reason : Text)
  deriving Repr

/-- The value of a request that is let in, or the error of one that is not. -/
def AuthDecision.toExcept : AuthDecision → Except GatewayError (Option Payload)
  | allowed extra => .ok extra
  | unauthenticated realm => .error (.unauthenticated realm)
  | unauthorized reason => .error (.unauthorized reason)

/-- The users; of one name the last counts. -/
structure Directory where
  users : List Config.User
  deriving Repr, DecidableEq

namespace Directory

/-- The user with the given name. -/
def user? (d : Directory) (name : Text) : Option Config.User :=
  d.users.reverse.find? fun u => u.name == name

/-- The name of the user whose password matches. -/
def checkPassword? (d : Directory) (c : Credentials) : Option Text :=
  (d.user? c.user).bind fun u => if u.password = c.password then some c.user else none

/-- The groups of a user. -/
def groups (d : Directory) (name : Text) : List Text :=
  ((d.user? name).map (·.groups)).getD []

end Directory

/-- What authentication depends on. -/
structure AuthSettings where
  /-- The groups that are let in; none for no check of groups. -/
  authorizedGroups : Option (List Text)
  directory : Directory
  deriving Repr, DecidableEq

namespace AuthSettings

/-- The settings of a configuration; a directory takes the place of the configured users. -/
def ofConfig (c : Config.Auth) (directory : Option Directory) : AuthSettings :=
  ⟨c.authorizedGroups, directory.getD ⟨c.users⟩⟩

/-- Whether some group of a user is one of the groups that are let in. -/
def admits (authorized groups : List Text) : Bool :=
  groups.any fun g => authorized.any fun a => Text.trim a == g

/-- The decision for credentials. -/
def decide (s : AuthSettings) (credentials : Option Credentials) (realm : Text) : AuthDecision :=
  match s.authorizedGroups with
  | none => .allowed none
  | some authorized =>
    match credentials.bind s.directory.checkPassword? with
    | none => .unauthenticated realm
    | some name =>
      if admits authorized (s.directory.groups name) then .allowed none
      else .unauthorized "User not authorized".toList

end AuthSettings

end SessionGateway
