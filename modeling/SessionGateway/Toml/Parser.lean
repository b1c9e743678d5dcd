/-
  Reading TOML — a document as a table.

  A document is a sequence of lines: pairs of a key and a value, and headers in single or
  double brackets.  Arrays may span lines, tables written as values may not.  Values nest
  less deep than `depthLimit`, and a key has fewer parts than that.
-/
import SessionGateway.Toml.Scalar

namespace SessionGateway.Toml

/-- Values nest, and keys have parts, fewer times than this. -/
def depthLimit : Nat := 80

/-! ## Blanks and comments -/

/-- Drops blanks. -/
def skipBlanks (t : Text) : Text := t.dropWhile isBlank

/-- Drops a comment up to the end of its line. -/
def skipComment : Text → Text
  | '#' :: t => t.dropWhile isPlain
  | t => t

/-- Drops blanks, comments and line ends. The first argument bounds the number of lines. -/
def skipLines : Nat → Text → Text
  | 0, t => t
  | fuel + 1, t =>
    match skipComment (skipBlanks t) with
    | '\n' :: u => skipLines fuel u
    | '\r' :: '\n' :: u => skipLines fuel u
    | u => u

/-- Drops blanks, comments and line ends. -/
def skip (t : Text) : Text := skipLines (t.length + 1) t

/-! ## Keys -/

/-- Whether a character may stand in a bare key. -/
def isBare (c : Char) : Bool := c.isAlphanum || c == '-' || c == '_'

/-- Reads one part of a key. -/
def keyPart : Reader Text := fun t =>
  match t with
  | '\x22' :: u => basic [] u
  | '\x27' :: u => literal u
  | _ =>
    match t.span isBare with
    | ([], _) => none
    | r => some r

/-- Reads the parts of a key that follow the first one, with the blanks around them. -/
def moreParts : Nat → Reader (List Text)
  | 0, t => some ([], t)
  | fuel + 1, t =>
    match skipBlanks t with
    | '.' :: u =>
      (keyPart (skipBlanks u)).bind fun (k, rest) =>
        (moreParts fuel rest).map fun (ks, rest) => (k :: ks, rest)
    | u => some ([], u)

/-- Reads a key: the parts on the way, and the last one. -/
def key : Reader (List Text × Text) := fun t => do
  let (k, rest) ← keyPart t
  let (ks, rest) ← moreParts rest.length rest
  let parts := k :: ks
  if parts.length < depthLimit then some ((parts.dropLast, parts.getLast?.getD k), rest) else none

/-! ## Values -/

/-- Reads the items of an array behind its opening bracket. -/
def arrayItems (item : Reader Node) : Nat → Reader (List Node)
  | 0, _ => none
  | fuel + 1, t =>
    match skip t with
    | ']' :: u => some ([], u)
    | u =>
      (item u).bind fun (n, rest) =>
        match skip rest with
        | ',' :: rest => (arrayItems item fuel rest).map fun (ns, rest) => (n :: ns, rest)
        | ']' :: rest => some ([n], rest)
        | _ => none

/-- Reads a key, an equals sign and a value. -/
def pair (item : Reader Node) : Reader Pair := fun t =>
  (key t).bind fun ((way, k), rest) =>
    match rest with
    | '=' :: u => (item (skipBlanks u)).map fun (n, rest) => (⟨way, k, n⟩, rest)
    | _ => none

/-- Reads the pairs of a table that is written as a value, up to its closing brace. -/
def inlinePairs (item : Reader Node) : Nat → Reader (List Pair)
  | 0, _ => none
  | fuel + 1, t =>
    (pair item (skipBlanks t)).bind fun (p, rest) =>
      match skipBlanks rest with
      | ',' :: rest => (inlinePairs item fuel rest).map fun (ps, rest) => (p :: ps, rest)
      | '\x7d' :: rest => some ([p], rest)
      | _ => none

/-- Reads a table that is written as a value, behind its opening brace. -/
def inlineTable (item : Reader Node) : Reader Node := fun t =>
  match skipBlanks t with
  | '\x7d' :: rest => some (.inline [], rest)
  | u =>
    (inlinePairs item (u.length + 1) u).bind fun (ps, rest) =>
      (addPairs [] ps).map fun ms => (.inline ms, rest)

/-- Reads a value in which arrays and tables nest at most `depth` deep. -/
def value : Nat → Reader Node
  | 0, t =>
    match t with
    | '[' :: _ => none
    | '\x7b' :: _ => none
    | _ => scalar t
  | depth + 1, t =>
    match t with
    | '[' :: u => (arrayItems (value depth) (u.length + 1) u).map fun (ns, rest) => (.array ns, rest)
    | '\x7b' :: u => inlineTable (value depth) u
    | _ => scalar t

/-! ## Lines -/

/-- Drops the rest of a line: blanks and a comment up to a line end or the end of the text. -/
def finishLine (t : Text) : Option Text :=
  match skipComment (skipBlanks t) with
  | [] => some []
  | '\n' :: rest => some rest
  | '\r' :: '\n' :: rest => some rest
  | _ => none

/-- Reads a header behind its opening brackets. -/
def header (repeated : Bool) : Reader Section := fun t =>
  (key (skipBlanks t)).bind fun ((way, k), rest) =>
    let close := if repeated then [']', ']'] else [']']
    (dropStart? close rest).map fun rest => (⟨repeated, way, k, []⟩, rest)

/-- A line that says something. -/
inductive Line where
  | pair (p : Pair)
  | header (s : Section)

/-- Reads a line up to its end. -/
def line : Reader Line := fun t =>
  match t with
  | '[' :: '[' :: u => (header true u).map fun (s, rest) => (.header s, rest)
  | '[' :: u => (header false u).map fun (s, rest) => (.header s, rest)
  | _ => (pair (value (depthLimit - 1)) t).map fun (p, rest) => (.pair p, rest)

/-- The lines of a text that say something. The first argument bounds their number. -/
def lines : Nat → Text → Option (List Line)
  | 0, _ => some []
  | fuel + 1, t =>
    match skip t with
    | [] => some []
    | u =>
      (line u).bind fun (l, rest) =>
        (finishLine rest).bind fun rest => (lines fuel rest).map (l :: ·)

/-- The pairs before the first header, and the sections. -/
def sections : List Line → List Pair × List Section
  | [] => ([], [])
  | .pair p :: ls =>
    let (ps, ss) := sections ls
    (p :: ps, ss)
  | .header s :: ls =>
    let (ps, ss) := sections ls
    ([], { s with pairs := ps } :: ss)

/-- Reads a document, behind a byte order mark. -/
def parse? (t : Text) : Option Members :=
  let t := (dropStart? ['\uFEFF'] t).getD t
  (lines (t.length + 1) t).bind fun ls =>
    let (pairs, ss) := sections ls
    assemble pairs ss

end SessionGateway.Toml
