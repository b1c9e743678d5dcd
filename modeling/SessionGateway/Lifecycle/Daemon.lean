/-
  The daemon — a gateway for the notes solution, and the watch over its configuration.

  A daemon answers requests one after the other and takes over a new configuration as
  soon as its file holds one that is valid.
-/
import SessionGateway.Config.Loading
import SessionGateway.Gateway.Basic
import SessionGateway.Notes.Solution

namespace SessionGateway

/-- A gateway for the notes solution, and the watch over its configuration. -/
structure Daemon where
  gateway : Gateway NoteStore
  watch : Watch

namespace Daemon

/-- What builds the sessions of a daemon. -/
def workshop : Workshop NoteStore := ⟨.ofList [NoteStore.solution], []⟩

/-- A daemon at its start; `text` is that of the configuration file, if there is one. -/
def new (config : Config) (text : Option Text) : Daemon :=
  ⟨.new config workshop none .empty, ⟨text⟩⟩

/-- Answers a request; one without a name gets the name `freshId`. -/
def handle (d : Daemon) (freshId : Bytes) (request : Request) : Draft × Daemon :=
  let (draft, _, gateway) := d.gateway.handle freshId request
  (draft, { d with gateway })

/-- Looks at the configuration file, whose text is `content` if it is readable; the result says
    whether a new configuration was taken over. -/
def reload (d : Daemon) (content : Option Text) : Bool × Daemon :=
  match d.watch.reload content with
  | (some config, watch) => (true, ⟨d.gateway.apply config, watch⟩)
  | (none, watch) => (false, { d with watch })

end Daemon

end SessionGateway
