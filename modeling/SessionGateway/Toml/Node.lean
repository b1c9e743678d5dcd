/-
  TOML values and tables, and how a document may put them together.

  A table remembers how it came about: by a header of its own, on the way to the table of
  another header, or by a dotted key.  From that follows who may add to it: `putKey` adds
  the value of a key, and `within` opens the table around that of a header.
-/
import SessionGateway.Text.Basic

namespace SessionGateway.Toml

/-- How a table came about. -/
inductive Origin where
  /-- By a header that names it, or as the document itself. -/
  | header
  /-- On the way to the table of a header. -/
  | path
  /-- By a dotted key. -/
  | dotted
  deriving DecidableEq, Repr

/-- What stands under a key. -/
inductive Node where
  | text (t : Text)
  | integer (i : Int)
  | float
  | boolean (b : Bool)
  /-- A date, a time or both. -/
  | moment
  | array (items : List Node)
  /-- A table that is written as a value; nothing can be added to it. -/
  | inline (members : List (Text × Node))
  | table (origin : Origin) (members : List (Text × Node))
  /-- The tables of headers in double brackets. -/
  | tables (items : List (List (Text × Node)))
  deriving Repr, Inhabited

/-- The keys of a table with what stands under them. -/
abbrev Members := List (Text × Node)

namespace Members

/-- What stands under a key. -/
def get? (ms : Members) (key : Text) : Option Node := ms.lookup key

/-- Gives a key another node, in its place or at the end. -/
def put (ms : Members) (key : Text) (n : Node) : Members :=
  match ms with
  | [] => [(key, n)]
  | m :: ms => if m.1 = key then (key, n) :: ms else m :: put ms key n

/-- Puts the value of a key into a table of the given origin. A table on the way must not have a
    header of its own, and a key that is there already is refused. A key with dots wants a table
    that dotted keys made; one without dots wants any other. -/
def putKey (origin : Origin) (key : Text) (n : Node) (dotted : Bool) : List Text → Members →
    Option Members
  | [], ms =>
    if dotted = (origin == .dotted) ∧ (ms.get? key).isNone then some (ms ++ [(key, n)]) else none
  | k :: way, ms =>
    match ms.get? k with
    | none =>
      (putKey .dotted key n dotted way []).map fun inner => ms.put k (.table .dotted inner)
    | some (.table .header _) => none
    | some (.table o inner) =>
      (putKey o key n dotted way inner).map fun inner => ms.put k (.table o inner)
    | some (.tables items) =>
      match items.getLast? with
      | some last =>
        (putKey .header key n dotted way last).map fun inner =>
          ms.put k (.tables (items.dropLast ++ [inner]))
      | none => none
    | some _ => none

/-- Changes the table at the end of a way, and makes the tables on it that are not there. -/
def within (f : Members → Option Members) : List Text → Members → Option Members
  | [], ms => f ms
  | k :: way, ms =>
    match ms.get? k with
    | none => (within f way []).map fun inner => ms.put k (.table .path inner)
    | some (.table o inner) =>
      (within f way inner).map fun inner => ms.put k (.table o inner)
    | some (.tables items) =>
      match items.getLast? with
      | some last =>
        (within f way last).map fun inner => ms.put k (.tables (items.dropLast ++ [inner]))
      | none => none
    | some _ => none

end Members

/-! ## Documents -/

/-- A key with its value: the keys on the way, the last one, and what stands under it. -/
structure Pair where
  way : List Text
  key : Text
  node : Node
  deriving Repr

/-- Adds the pairs of a table, in order. -/
def addPairs (ms : Members) (pairs : List Pair) : Option Members :=
  pairs.foldlM (fun ms p => ms.putKey .header p.key p.node (!p.way.isEmpty) p.way) ms

/-- A header with the pairs below it. -/
structure Section where
  /-- Whether the header stands in double brackets. -/
  repeated : Bool
  way : List Text
  key : Text
  pairs : List Pair
  deriving Repr

/-- Adds the table of a section. A table that is already there must have come about on the way to
    another. -/
def addSection (ms : Members) (s : Section) : Option Members :=
  ms.within (fun around =>
    match s.repeated, around.get? s.key with
    | false, none =>
      (addPairs [] s.pairs).map fun inner => around.put s.key (.table .header inner)
    | false, some (.table .path inner) =>
      (addPairs inner s.pairs).map fun inner => around.put s.key (.table .header inner)
    | true, none => (addPairs [] s.pairs).map fun inner => around.put s.key (.tables [inner])
    | true, some (.tables items) =>
      (addPairs [] s.pairs).map fun inner => around.put s.key (.tables (items ++ [inner]))
    | _, _ => none) s.way

/-- The table of a document: the pairs before the first header, and the sections. -/
def assemble (pairs : List Pair) (sections : List Section) : Option Members :=
  (addPairs [] pairs).bind fun ms => sections.foldlM addSection ms

end SessionGateway.Toml
