/-
  Reading JSON — the value of a sequence of tokens.

  The reader is a machine with a stack of open arrays and objects.  `Reader.step` takes
  one token, and `Json.parse?` runs it over the tokens of a text and wants one value and
  nothing else.  No value nests deeper than `depthLimit`.  A name that is repeated in an
  object keeps its first place and takes its last value.
-/
import SessionGateway.Json.Token
import SessionGateway.Text.Utf8

namespace SessionGateway.Json

/-- The greatest nesting of arrays and objects that is read. -/
def depthLimit : Nat := 127

namespace Reader

/-- An open array or object around the value being read. -/
inductive Frame where
  /-- The items so far, in reverse. -/
  | array (items : List Json)
  /-- The members so far, and the name that waits for its value. -/
  | object (members : Members) (name : Text)
  deriving Repr

/-- What may come next. -/
inductive State where
  /-- A value. -/
  | value (around : List Frame)
  /-- A value or the end of an array that was just opened. -/
  | firstItem (around : List Frame)
  /-- A name or the end of an object that was just opened. -/
  | firstName (around : List Frame)
  /-- A name, behind a comma. -/
  | name (members : Members) (around : List Frame)
  /-- A colon. -/
  | colon (members : Members) (name : Text) (around : List Frame)
  /-- A comma or an end, behind a complete value. -/
  | complete (v : Json) (around : List Frame)
  deriving Repr

/-- Opens an array or object inside `around`, unless it nests too deep. -/
def enter (around : List Frame) (s : State) : Option State :=
  if around.length < depthLimit then some s else none

/-- A token where a value must come. -/
def begin (around : List Frame) : Token → Option State
  | .scalar v => some (.complete v around)
  | .string t => some (.complete (.string t) around)
  | .beginArray => enter around (.firstItem around)
  | .beginObject => enter around (.firstName around)
  | _ => none

/-- One token. -/
def step : State → Token → Option State
  | .value around, k => begin around k
  | .firstItem around, .endArray => some (.complete (.array []) around)
  | .firstItem around, k => begin (.array [] :: around) k
  | .firstName around, .endObject => some (.complete (.object []) around)
  | .firstName around, .string n => some (.colon [] n around)
  | .name ms around, .string n => some (.colon ms n around)
  | .colon ms n around, .colon => some (.value (.object ms n :: around))
  | .complete v (.array items :: around), .comma => some (.value (.array (v :: items) :: around))
  | .complete v (.array items :: around), .endArray =>
    some (.complete (.array (v :: items).reverse) around)
  | .complete v (.object ms n :: around), .comma => some (.name (ms.insert n v) around)
  | .complete v (.object ms n :: around), .endObject =>
    some (.complete (.object (ms.insert n v)) around)
  | _, _ => none

/-- The value, if exactly one has been read. -/
def State.result? : State → Option Json
  | .complete v [] => some v
  | _ => none

end Reader

/-- The value of a sequence of tokens. -/
def ofTokens? (ks : List Token) : Option Json :=
  (ks.foldlM Reader.step (.value [])).bind Reader.State.result?

/-- Reads a JSON text. -/
def parse? (t : Text) : Option Json := (tokens? t).bind ofTokens?

/-- Reads JSON from the octets of UTF-8. -/
def parseBytes? (bs : Bytes) : Option Json := (Utf8.decode? bs).bind parse?

end SessionGateway.Json
