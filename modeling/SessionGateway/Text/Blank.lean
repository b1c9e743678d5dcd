/-
  Blank characters — the classes of white space that the readers skip or trim.

  * `isBlank` is the Unicode property White_Space: what is trimmed from header
    parameters, encodings, credentials and group names;
  * `isSpace` are the four characters that separate markup and JSON tokens;
  * `isAsciiBlank` adds the form feed: what a content guess looks past.
-/
import SessionGateway.Text.Basic

namespace SessionGateway.Text

/-- The Unicode property White_Space. -/
def isBlank (c : Char) : Bool :=
  let n := c.toNat
  (9 ≤ n && n ≤ 13) || n == 0x20 || n == 0x85 || n == 0xA0 || n == 0x1680 ||
    (0x2000 ≤ n && n ≤ 0x200A) || n == 0x2028 || n == 0x2029 || n == 0x202F ||
    n == 0x205F || n == 0x3000

/-- Space, tab, line feed and carriage return. -/
def isSpace (c : Char) : Bool :=
  c == ' ' || c == '\t' || c == '\n' || c == '\r'

/-- The octets of the ASCII white space: tab, line feed, form feed, carriage return, space. -/
def isAsciiBlank (b : UInt8) : Bool :=
  b == 9 || b == 10 || b == 12 || b == 13 || b == 32

/-- The text without white space at either end. -/
def trim (t : Text) : Text := trimBy isBlank t

/-- The text without white space at its end. -/
def trimEnd (t : Text) : Text := trimEndBy isBlank t

/-- The text without white space at its start. -/
def trimStart (t : Text) : Text := t.dropWhile isBlank

theorem isSpace_iff {c : Char} :
    isSpace c = true ↔ c = ' ' ∨ c = '\t' ∨ c = '\n' ∨ c = '\r' := by
  simp only [isSpace, Bool.or_eq_true, beq_iff_eq, or_assoc]

end SessionGateway.Text
