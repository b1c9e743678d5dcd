/-
  Loading configurations — from the text of a file, once and whenever it changes.

  * `Config.parse` reads and validates a text, `Config.load` the octets of a file;
  * a `Watch` holds the text that was accepted last: `Watch.reload` looks at the file once
    more and forwards a configuration if the text is another one and valid.
-/
import SessionGateway.Config.Reading
import SessionGateway.Config.Validation
import SessionGateway.Text.Utf8

namespace SessionGateway

/-- Why a configuration cannot be used. -/
inductive ConfigError where
  /-- There is no file, or it is no text. -/
  | unreadable
  /-- The text is no configuration. -/
  | malformed
  | invalid (problems : List Problem)
  deriving Repr, DecidableEq

/-- What an error says; the first two have no text of their own. -/
def ConfigError.message : ConfigError → Text
  | unreadable => "IO error".toList
  | malformed => "Parse error".toList
  | invalid problems =>
    "Validation failed: ".toList ++ Text.join ", ".toList (problems.map Problem.text)

namespace Config

/-- The configuration in a text. -/
def parse (t : Text) : Except ConfigError Config :=
  match (Toml.parse? t).bind ofMembers? with
  | none => .error .malformed
  | some c => if c.isValid then .ok c else .error (.invalid c.problems)

/-- The configuration in a file, if there is one. -/
def load (content : Option Bytes) : Except ConfigError Config :=
  match content.bind Utf8.decode? with
  | none => .error .unreadable
  | some t => parse t

end Config

/-! ## Watching a file -/

/-- What is known of a watched file. -/
structure Watch where
  /-- The text that was accepted last. -/
  accepted : Option Text
  deriving Repr

namespace Watch

/-- Looks at the file, whose text is `content` if it is readable. A configuration comes out if the
    text has changed and is valid; only then is it remembered. -/
def reload (w : Watch) (content : Option Text) : Option Config × Watch :=
  match content with
  | none => (none, w)
  | some t =>
    if w.accepted = some t then (none, w)
    else
      match Config.parse t with
      | .ok c => (some c, ⟨some t⟩)
      | .error _ => (none, w)

end Watch

end SessionGateway
