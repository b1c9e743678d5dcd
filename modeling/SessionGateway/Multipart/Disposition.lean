/-
  Content dispositions — the names that a part of a form gives itself.

  An attribute is looked for by its name, behind a blank or a semicolon.  Its value stands
  between quotation marks, where a backslash before a quotation mark keeps the value
  going, or else reaches up to the next semicolon or space.
-/
import SessionGateway.Text.Blank
import SessionGateway.Text.Utf8

namespace SessionGateway.Multipart

/-- The octets of an ASCII text. -/
def ascii (s : String) : Bytes := s.toList.map fun c => UInt8.ofNat c.toNat

/-- Whether an attribute may begin behind the octets `before`. -/
def mayBegin (before : Bytes) : Bool :=
  match before.getLast? with
  | none => true
  | some b => Text.isAsciiBlank b || b == 0x3B

/-- What follows the first place where the attribute `name` begins. -/
def afterName? (name : Bytes) (value : Bytes) : Option Bytes :=
  match name with
  | [] => none
  | n :: ns =>
    match h : cutAt? (n :: ns) value with
    | some (before, rest) =>
      have : rest.length < value.length := by
        have := congrArg List.length (cutAt?_eq_some h)
        simp only [List.length_append, List.length_cons] at this
        omega
      if mayBegin before then some rest else afterName? (n :: ns) rest
    | none => none
termination_by value.length

/-- The octets behind blanks and then `b`. -/
def behind? (b : UInt8) (bs : Bytes) : Option Bytes :=
  match bs.dropWhile Text.isAsciiBlank with
  | x :: rest => if x = b then some rest else none
  | [] => none

/-- The octets up to a quotation mark that has no backslash before it, with the backslashes of
    the others removed. -/
def quotedValue? : Bytes → Option Bytes
  | [] => none
  | 0x5C :: 0x22 :: rest => (quotedValue? rest).map (0x22 :: ·)
  | b :: rest => if b = 0x22 then some [] else (quotedValue? rest).map (b :: ·)

/-- The octets of the attribute `name`. -/
def attributeOctets? (name value : Bytes) : Option Bytes :=
  ((afterName? name value).bind (behind? 0x3D)).bind fun rest =>
    match behind? 0x22 rest with
    | some inner => quotedValue? inner
    | none => some ((rest.dropWhile Text.isAsciiBlank).takeWhile fun b => b != 0x3B && b != 0x20)

/-- The text of the attribute `name` of a content disposition. -/
def attribute? (name : String) (value : Bytes) : Option Text :=
  (attributeOctets? (ascii name) value).bind Utf8.decode?

end SessionGateway.Multipart
