/-
  JSON text — the compact written form of a value.

  No blanks are written.  In a string only the quotation mark, the backslash and the
  control characters below U+0020 are escaped.  A whole number is written in decimal; a
  float in its shortest digits, laid out as `Json.layout` says.
-/
import SessionGateway.Json.Value
import SessionGateway.Number.Shortest

namespace SessionGateway.Json

/-- Floats are positional from 10⁻⁵ to below 10¹⁶. -/
def layout : Decimal.Layout := ⟨-5, 15⟩

/-- The text of a number. -/
def Number.text : Number → Text
  | .whole i => Numeral.integer i
  | .float x => layout.write x

/-- A character inside a string. -/
def escapeChar (c : Char) : Text :=
  if c = '\x22' then ['\\', '\x22']
  else if c = '\\' then ['\\', '\\']
  else if c = '\x08' then ['\\', 'b']
  else if c = '\x09' then ['\\', 't']
  else if c = '\x0a' then ['\\', 'n']
  else if c = '\x0c' then ['\\', 'f']
  else if c = '\x0d' then ['\\', 'r']
  else if c.toNat < 0x20 then
    ['\\', 'u', '0', '0', Numeral.hexDigit (c.toNat / 16), Numeral.hexDigit (c.toNat % 16)]
  else [c]

/-- A string between quotation marks. -/
def quote (t : Text) : Text := '\x22' :: (t.flatMap escapeChar ++ ['\x22'])

mutual

/-- The compact text of a value. -/
def text : Json → Text
  | .null => "null".toList
  | .bool true => "true".toList
  | .bool false => "false".toList
  | .number n => n.text
  | .string t => quote t
  | .array items => '[' :: textItems items
  | .object members => '\x7b' :: textMembers members

/-- The items of an array behind its opening bracket, and the closing one. -/
def textItems : List Json → Text
  | [] => [']']
  | [v] => v.text ++ [']']
  | v :: w :: items => v.text ++ ',' :: textItems (w :: items)

/-- The members of an object behind its opening brace, and the closing one. -/
def textMembers : List (Text × Json) → Text
  | [] => ['\x7d']
  | [(k, v)] => quote k ++ ':' :: (v.text ++ ['\x7d'])
  | (k, v) :: m :: members => quote k ++ ':' :: (v.text ++ ',' :: textMembers (m :: members))

end

/-- A string as itself, any other value as its text. -/
def plain : Json → Text
  | .string t => t
  | v => v.text

end SessionGateway.Json
