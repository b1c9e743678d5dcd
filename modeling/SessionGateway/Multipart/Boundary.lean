/-
  Boundaries — the parameter of a `multipart/form-data` type that divides its parts.

  The type is read strictly: tokens divided by a slash, then parameters behind
  semicolons, each a token, `=` and a value.  A value is a token, or a text between
  quotation marks with at least one character; only the last parameter may be empty.
  Spaces may stand before a parameter and behind a quoted value.  A suffix that a plus
  sign divides from the subtype does not count.
-/
import SessionGateway.Http.Header
import SessionGateway.Text.Blank

namespace SessionGateway.Multipart

/-- Whether a character may stand between quotation marks. -/
def isQuotable (c : Char) : Bool := 31 < c.toNat && c.toNat != 127

/-- Reads a value between quotation marks, behind the opening one: the first character belongs to
    it, whatever it is. -/
def quoted? : Text → Option (Text × Text)
  | [] => none
  | c :: t =>
    if isQuotable c then
      match t.span fun x => isQuotable x && x != '\x22' with
      | (inner, '\x22' :: rest) => some (c :: inner, rest)
      | _ => none
    else none

/-- Drops the spaces and the semicolon before the next parameter. -/
def nextParameter? (t : Text) : Option Text :=
  match t.dropWhile (· == ' ') with
  | [] => some []
  | ';' :: rest => some rest
  | _ => none

/-- Reads the value of a parameter, and what follows the semicolon behind it. -/
def value? (t : Text) : Option (Text × Text) :=
  match t with
  | '\x22' :: u => (quoted? u).bind fun (v, rest) => (nextParameter? rest).map fun r => (v, r)
  | _ =>
    match t.span Header.isToken with
    | (v, []) => some (v, [])
    | (v, ';' :: rest) => if v.isEmpty then none else some (v, rest)
    | _ => none

/-- The parameters behind a type, names in small letters. The first argument bounds their number;
    a text has no more parameters than characters. -/
def parameters? : Nat → Text → Option (List (Text × Text))
  | 0, _ => some []
  | fuel + 1, t =>
    match t.dropWhile (· == ' ') with
    | [] => some []
    | u =>
      match u.span Header.isToken with
      | (_ :: _, '=' :: v) =>
        (value? v).bind fun (value, rest) =>
          (parameters? fuel rest).map fun ps =>
            (Text.lower (u.takeWhile Header.isToken), value) :: ps
      | _ => none

/-- The part of a subtype before its suffix. -/
def withoutSuffix (subtype : Text) : Text :=
  match subtype with
  | [] => []
  | c :: rest =>
    match cut? '+' rest.reverse with
    | some (_, before) => c :: before.reverse
    | none => subtype

/-- A type in small letters, without suffix, and its parameters. -/
def mediaType? (header : Text) : Option (Text × Text × List (Text × Text)) :=
  match header.span Header.isToken with
  | (_ :: _, '/' :: t) =>
    let type := Text.lower (header.takeWhile Header.isToken)
    match t.span Header.isToken with
    | (sub, []) => some (type, withoutSuffix (Text.lower sub), [])
    | (c :: sub, ';' :: rest) =>
      (parameters? rest.length rest).map fun ps => (type, withoutSuffix (Text.lower (c :: sub)), ps)
    | _ => none
  | _ => none

/-- The boundary that a header declares. -/
def boundary? (header : Text) : Option Text :=
  (mediaType? header).bind fun (type, sub, parameters) =>
    if type = "multipart".toList ∧ sub = "form-data".toList then
      parameters.lookup "boundary".toList
    else none

end SessionGateway.Multipart
