/-
  Writing XML — a JSON value as markup.

  An object writes one element for each member, and an array one element of its name for
  each item; an array inside an array, and one that has no name, writes elements named
  `array`.  The member `content` writes text without a tag.  An empty string is an element
  without content, and a scalar that has no name stands between quotation marks.
-/
import SessionGateway.Json.Printer
import SessionGateway.Xml.Reading

namespace SessionGateway.Xml

/-- The name of the items of an array that has none. -/
def arrayTag : Text := "array".toList

/-- A character in text: the five that have a named reference are written as one. -/
def escapeChar (c : Char) : Text :=
  if c = '<' then "&lt;".toList
  else if c = '>' then "&gt;".toList
  else if c = '&' then "&amp;".toList
  else if c = '\x27' then "&apos;".toList
  else if c = '\x22' then "&quot;".toList
  else [c]

/-- A text with its special characters written as references. -/
def escape (t : Text) : Text := t.flatMap escapeChar

/-- An element around written content. -/
def wrap (tag inner : Text) : Text :=
  '<' :: (tag ++ '>' :: (inner ++ '<' :: '/' :: (tag ++ ['>'])))

/-- An element around text. -/
def leaf (tag t : Text) : Text :=
  if t.isEmpty then '<' :: (tag ++ ['/', '>']) else wrap tag (escape t)

/-- The text of the member `content`: the items of an array on lines of their own. -/
def contentText : Json → Text
  | .array items => Text.join ['\n'] (items.map Json.plain)
  | v => v.plain

mutual

/-- The elements that a value under the name `tag` writes. -/
def element (tag : Text) : Json → Text
  | .object members => wrap tag (body members)
  | .array items => elements tag items
  | .null => leaf tag Json.null.plain
  | .bool b => leaf tag (Json.bool b).plain
  | .number n => leaf tag (Json.number n).plain
  | .string t => leaf tag t

/-- The elements of the items of an array under the name `tag`. -/
def elements (tag : Text) : List Json → Text
  | [] => []
  | v :: items => element tag v ++ elements tag items

/-- What the members of an object write. -/
def body : List (Text × Json) → Text
  | [] => []
  | (name, .array items) :: members =>
    (if name = contentKey then escape (contentText (.array items)) else itemElements name items) ++
      body members
  | (name, v) :: members =>
    (if name = contentKey then escape (contentText v) else element name v) ++ body members

/-- The elements of the items of an array that is the member `name` of an object. -/
def itemElements (name : Text) : List Json → Text
  | [] => []
  | .array inner :: items => wrap name (elements arrayTag inner) ++ itemElements name items
  | v :: items => element name v ++ itemElements name items

end

/-- The markup of a value. -/
def write : Json → Text
  | .object members => body members
  | .array items => elements arrayTag items
  | v => '\x22' :: (escape v.plain ++ ['\x22'])

end SessionGateway.Xml
