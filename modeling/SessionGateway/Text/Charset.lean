/-
  Charsets — the three encodings a body can be read and written in.

  A name is looked up without regard to case and surrounding white space; a name that
  is not known stands for UTF-8.  `Charset.decode` never fails: what the charset cannot
  read becomes a replacement character; `Charset.encode` writes `?` for a character that
  the charset cannot hold.
-/
import SessionGateway.Text.Blank
import SessionGateway.Text.Utf8

namespace SessionGateway

/-- A supported charset. -/
inductive Charset where
  | utf8
  | latin1
  | ascii
  deriving DecidableEq, Repr

namespace Charset

/-- The registered name. -/
def name : Charset → Text
  | utf8 => "UTF-8".toList
  | latin1 => "ISO-8859-1".toList
  | ascii => "US-ASCII".toList

/-- The spellings of the charsets other than UTF-8, in small letters. -/
def aliases : List (Text × Charset) :=
  [("iso-8859-1".toList, latin1), ("iso8859-1".toList, latin1), ("latin1".toList, latin1),
    ("latin-1".toList, latin1), ("l1".toList, latin1), ("us-ascii".toList, ascii),
    ("ascii".toList, ascii)]

/-- The charset that a name stands for: UTF-8 unless it is a spelling of another one. -/
def ofName (t : Text) : Charset :=
  ((aliases.find? fun a => a.1 == t.trim.lower).map (·.2)).getD utf8

/-- The registered name of the charset that a name stands for. -/
def canonicalName (t : Text) : Text := (ofName t).name

/-- The text of a body. -/
def decode : Charset → Bytes → Text
  | utf8, bs => Utf8.decodeText bs
  | latin1, bs => bs.map fun b => Char.ofNat b.toNat
  | ascii, bs => bs.map fun b => if b < 0x80 then Char.ofNat b.toNat else Utf8.replacement

/-- The octet of a character below `bound`, and of a question mark for any other. -/
def narrow (bound : Nat) (c : Char) : UInt8 :=
  if c.toNat < bound then UInt8.ofNat c.toNat else 63

/-- The body of a text. -/
def encode : Charset → Text → Bytes
  | utf8, t => Utf8.encode t
  | latin1, t => t.map (narrow 256)
  | ascii, t => t.map (narrow 128)

@[simp] theorem ofName_name (c : Charset) : ofName c.name = c := by
  cases c <;> decide

@[simp] theorem canonicalName_canonicalName (t : Text) :
    canonicalName (canonicalName t) = canonicalName t := by
  simp [canonicalName]

end Charset

end SessionGateway
