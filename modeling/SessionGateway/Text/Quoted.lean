/-
  Quoted text — a text between quotation marks, for messages.

  A backslash stands before the marks to be escaped and before the letters of the common
  control characters; any other character that is not printable is written as its number
  in braces.  A file path escapes the apostrophe too.
-/
import SessionGateway.Text.Numeral
import SessionGateway.Text.Printable

namespace SessionGateway.Text

/-- The hexadecimal digits of a number, without leading zeros. -/
def hexadecimal (n : Nat) : Text :=
  if n < 16 then [Numeral.hexDigit n] else hexadecimal (n / 16) ++ [Numeral.hexDigit (n % 16)]

/-- A character between quotation marks; `marks` are the ones behind a backslash. -/
def quotedChar (marks : Text) (c : Char) : Text :=
  if marks.contains c then ['\\', c]
  else if c = '\x00' then ['\\', '0']
  else if c = '\t' then ['\\', 't']
  else if c = '\n' then ['\\', 'n']
  else if c = '\r' then ['\\', 'r']
  else if isPrintable c then [c]
  else "\\u\x7b".toList ++ hexadecimal c.toNat ++ ['\x7d']

/-- A text between quotation marks. -/
def quoted (t : Text) : Text := '\x22' :: (t.flatMap (quotedChar ['\\', '\x22']) ++ ['\x22'])

/-- A file path between quotation marks. -/
def quotedPath (t : Text) : Text :=
  '\x22' :: (t.flatMap (quotedChar ['\\', '\x22', '\x27']) ++ ['\x22'])

end SessionGateway.Text
