/-
  Kinds of content — the wire formats a body can have.

  `Kind.ofHeader` classifies a header by what it contains, the first rule that fits
  winning: the spreadsheet formats mention both `openxml` and `xml` and are binary.
  Where the header says nothing, `Kind.guess` looks at the first significant octet of
  the body: `<` begins XML and an opening brace JSON.
-/
import SessionGateway.Media.Type
import SessionGateway.Text.Utf8

namespace SessionGateway

/-- A wire format; `other` is one that is not recognised, and no request body may have it. -/
inductive Kind where
  | json
  | xml
  | binary
  | multipart
  | text
  | form
  | other
  deriving DecidableEq, Repr

namespace Kind

/-- The type of a form post. -/
def formType : Text := "application/x-www-form-urlencoded".toList

/-- The kind of a header in small letters. -/
def ofLower (header : Text) : Kind :=
  if occursIn "openxml".toList header then binary
  else if occursIn "json".toList header then json
  else if occursIn "xml".toList header then xml
  else if occursIn "text".toList header then text
  else if occursIn "multipart".toList header then multipart
  else if Media.essence header = formType then form
  else if occursIn "octet-stream".toList header ∨ occursIn "application".toList header then binary
  else other

/-- The kind that a header asks for. -/
def ofHeader : Option Text → Kind
  | some header => ofLower header.lower
  | none => other

/-- The kind itself, or `fallback` if it is not recognised. -/
def orElse (k fallback : Kind) : Kind := if k = other then fallback else k

/-- The type of a structured answer; multipart and form posts are answered as JSON. -/
def responseType? : Kind → Option Text
  | json | multipart | form => some "application/json".toList
  | xml => some "application/xml".toList
  | text => some "text/plain".toList
  | binary | other => none

/-- The kind that the first significant octet of a body shows, behind a byte order mark. -/
def guess (body : Bytes) (fallback : Kind) : Kind :=
  match (Utf8.dropMark body).dropWhile Text.isAsciiBlank with
  | 0x3C :: _ => xml
  | 0x7B :: _ => json
  | _ => fallback

/-- The kind of a body: what its header asks for, or else what the body shows. -/
def classify (header : Option Text) (body : Option Bytes) (fallback : Kind) : Kind :=
  (ofHeader header).orElse <|
    match body with
    | some bytes => guess bytes fallback
    | none => fallback

/-- The name of a kind in messages. -/
def label : Kind → Text
  | json => "Json".toList
  | xml => "Xml".toList
  | binary => "Binary".toList
  | multipart => "Multipart".toList
  | text => "Text".toList
  | form => "FormPost".toList
  | other => "Other".toList

end Kind

end SessionGateway
