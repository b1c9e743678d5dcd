/-
  UTF-8 — text as octets.

  * `Utf8.encode` writes each character in one to four octets;
  * `Utf8.head` reads the character a byte string begins with, or the longest piece
    that could still have begun one but does not;
  * `Utf8.decode?` refuses a broken piece, `Utf8.decodeLossy` writes one replacement
    character for it, `Utf8.decodeText` drops one byte order mark before.
-/
import SessionGateway.Text.Basic

namespace SessionGateway.Utf8

/-! ## Writing -/

/-- The octet of a number below 256. -/
def octet (n : Nat) : UInt8 := UInt8.ofNat n

/-- The octets of a character: one below U+0080, two below U+0800, three below U+10000. -/
def encodeChar (c : Char) : Bytes :=
  let n := c.toNat
  if n < 0x80 then [octet n]
  else if n < 0x800 then [octet (0xC0 + n / 64), octet (0x80 + n % 64)]
  else if n < 0x10000 then
    [octet (0xE0 + n / 4096), octet (0x80 + n / 64 % 64), octet (0x80 + n % 64)]
  else
    [octet (0xF0 + n / 262144), octet (0x80 + n / 4096 % 64), octet (0x80 + n / 64 % 64),
      octet (0x80 + n % 64)]

/-- The octets of a text. -/
def encode (t : Text) : Bytes := t.flatMap encodeChar

/-! ## Reading -/

/-- What a non-empty byte string begins with, and what follows it. -/
inductive Head where
  /-- A whole character. -/
  | char (c : Char) (rest : Bytes)
  /-- A piece that is no character. -/
  | broken (rest : Bytes)

/-- What follows the first character or broken piece. -/
def Head.rest : Head → Bytes
  | char _ rest | broken rest => rest

/-- Whether an octet continues a character. -/
def isTail (b : UInt8) : Bool := 0x80 ≤ b && b ≤ 0xBF

/-- Whether `b` may stand second in a character that begins with `lead`: the shortest form is
    the only one, and neither surrogates nor numbers above U+10FFFF have any. -/
def isSecond (lead b : UInt8) : Bool :=
  if lead == 0xE0 then 0xA0 ≤ b && b ≤ 0xBF
  else if lead == 0xED then 0x80 ≤ b && b ≤ 0x9F
  else if lead == 0xF0 then 0x90 ≤ b && b ≤ 0xBF
  else if lead == 0xF4 then 0x80 ≤ b && b ≤ 0x8F
  else isTail b

/-- The low six bits of a continuing octet, as a number. -/
def low (b : UInt8) : Nat := b.toNat % 64

/-- What the byte string `lead :: bs` begins with. -/
def head (lead : UInt8) (bs : Bytes) : Head :=
  if lead < 0x80 then .char (Char.ofNat lead.toNat) bs
  else if lead < 0xC2 then .broken bs
  else if lead < 0xE0 then
    match bs with
    | b :: rest =>
      if isTail b then .char (Char.ofNat (lead.toNat % 32 * 64 + low b)) rest else .broken bs
    | [] => .broken []
  else if lead < 0xF0 then
    match bs with
    | b :: c :: rest =>
      if isSecond lead b then
        if isTail c then .char (Char.ofNat (lead.toNat % 16 * 4096 + low b * 64 + low c)) rest
        else .broken (c :: rest)
      else .broken bs
    | [b] => if isSecond lead b then .broken [] else .broken bs
    | [] => .broken []
  else if lead < 0xF5 then
    match bs with
    | b :: c :: d :: rest =>
      if isSecond lead b then
        if isTail c then
          if isTail d then
            .char (Char.ofNat (lead.toNat % 8 * 262144 + low b * 4096 + low c * 64 + low d)) rest
          else .broken (d :: rest)
        else .broken (c :: d :: rest)
      else .broken bs
    | [b, c] =>
      if isSecond lead b then if isTail c then .broken [] else .broken [c] else .broken bs
    | [b] => if isSecond lead b then .broken [] else .broken bs
    | [] => .broken []
  else .broken bs

theorem length_rest_head (lead : UInt8) (bs : Bytes) :
    (head lead bs).rest.length ≤ bs.length := by
  unfold head
  repeat' split
  all_goals simp [Head.rest]
  all_goals omega

/-- The character written for a broken piece. -/
def replacement : Char := '\uFFFD'

/-- The text that a byte string stands for, behind the characters `done` in reverse; each broken
    piece gives one replacement character. -/
def decodeLossyOnto (done : Text) : Bytes → Text
  | [] => done.reverse
  | b :: bs =>
    match h : head b bs with
    | .char c rest =>
      have : rest.length ≤ bs.length := by simpa [h, Head.rest] using length_rest_head b bs
      decodeLossyOnto (c :: done) rest
    | .broken rest =>
      have : rest.length ≤ bs.length := by simpa [h, Head.rest] using length_rest_head b bs
      decodeLossyOnto (replacement :: done) rest
termination_by bs => bs.length
decreasing_by all_goals simp; omega

/-- The text of a byte string, with a replacement character for each broken piece. -/
def decodeLossy (bs : Bytes) : Text := decodeLossyOnto [] bs

/-- The text of a byte string behind the characters `done` in reverse; none if a piece is
    broken. -/
def decodeOnto? (done : Text) : Bytes → Option Text
  | [] => some done.reverse
  | b :: bs =>
    match h : head b bs with
    | .char c rest =>
      have : rest.length ≤ bs.length := by simpa [h, Head.rest] using length_rest_head b bs
      decodeOnto? (c :: done) rest
    | .broken _ => none
termination_by bs => bs.length
decreasing_by simp; omega

/-- The text of a byte string; none if some piece of it is no character. -/
def decode? (bs : Bytes) : Option Text := decodeOnto? [] bs

/-- The byte string without a byte order mark at its start. -/
def dropMark (bs : Bytes) : Bytes :=
  (dropStart? [0xEF, 0xBB, 0xBF] bs).getD bs

/-- The text of a byte string that may open with a byte order mark. -/
def decodeText (bs : Bytes) : Text := decodeLossy (dropMark bs)

end SessionGateway.Utf8
