/-
  JSON tokens — the pieces of a JSON text.

  `Json.tokens?` cuts a text into brackets, commas, colons and scalars, and drops the
  blanks between them; it fails where no piece begins.  Two scalars may touch: the
  grammar of values, which comes next, never allows them side by side.

  A number without fraction and exponent stays whole if it fits sixty-four bits (`-0`
  is the float of negative sign).  Of any other the digits are gathered in a word of
  sixty-four bits as far as they fit, and then rounded and scaled
  (`Binary64.ofDecimalTwice`); one beyond the greatest float is refused.
-/
import SessionGateway.Json.Value
import SessionGateway.Text.Blank

namespace SessionGateway.Json

/-- A piece of a JSON text. -/
inductive Token where
  | beginArray
  | endArray
  | beginObject
  | endObject
  | comma
  | colon
  | string (t : Text)
  /-- `null`, a Boolean or a number. -/
  | scalar (v : Json)
  deriving Repr, BEq

/-! ## Strings -/

/-- The character that a backslash and `c` stand for, if `c` is not `u`. -/
def unescape? (c : Char) : Option Char :=
  if c = '\x22' then some '\x22'
  else if c = '\\' then some '\\'
  else if c = '/' then some '/'
  else if c = 'b' then some '\x08'
  else if c = 'f' then some '\x0c'
  else if c = 'n' then some '\x0a'
  else if c = 'r' then some '\x0d'
  else if c = 't' then some '\x09'
  else none

/-- The number of four hexadecimal digits. -/
def unit? (a b c d : Char) : Option Nat := Numeral.hex? [a, b, c, d]

/-- The character of two surrogates. -/
def pair? (high low : Nat) : Option Char :=
  if 0xD800 ≤ high ∧ high < 0xDC00 ∧ 0xDC00 ≤ low ∧ low < 0xE000 then
    some (Char.ofNat (0x10000 + (high - 0xD800) * 1024 + (low - 0xDC00)))
  else none

/-- The character of a number that is no surrogate. -/
def single? (n : Nat) : Option Char :=
  if 0xD800 ≤ n ∧ n < 0xE000 then none else some (Char.ofNat n)

/-- Reads a string up to its closing quotation mark, behind the characters `done` in reverse. -/
def readString (done : Text) : Text → Option (Text × Text)
  | [] => none
  | '\\' :: 'u' :: a :: b :: c :: d :: rest =>
    match (unit? a b c d).bind single? with
    | some x => readString (x :: done) rest
    | none =>
      match rest with
      | '\\' :: 'u' :: e :: f :: g :: h :: rest' =>
        match unit? a b c d, unit? e f g h with
        | some high, some low =>
          match pair? high low with
          | some x => readString (x :: done) rest'
          | none => none
        | _, _ => none
      | _ => none
  | '\\' :: c :: rest =>
    match unescape? c with
    | some x => readString (x :: done) rest
    | none => none
  | c :: rest =>
    if c = '\x22' then some (done.reverse, rest)
    else if c = '\\' ∨ c.toNat < 0x20 then none
    else readString (c :: done) rest
termination_by t => t.length
decreasing_by all_goals (simp only [List.length_cons]; omega)

/-! ## Numbers -/

/-- A number as it is written: sign, digits before and behind the point, and the exponent with
    its sign. -/
structure Literal where
  negative : Bool
  whole : Text
  fraction : Option Text
  exponent : Option (Bool × Text)

/-- Adds digits to `n` while the sum fits sixty-four bits; the second part are the digits from
    the first one that does not fit. -/
def gather (n : Nat) : Text → Nat × Text
  | [] => (n, [])
  | c :: ds =>
    let m := 10 * n + (Numeral.digit? c).getD 0
    if m ≤ Numeral.max64 then gather m ds else (n, c :: ds)

/-- The greatest exponent that is taken as written. -/
def exponentLimit : Nat := 0x7FFFFFFF

/-- The float of a literal: digits that do not fit the word only count as places. -/
def Literal.float? (l : Literal) : Option Number :=
  let fraction := l.fraction.getD []
  let (n, left) := gather 0 l.whole
  let (n, unread) := gather n fraction
  let place : Int := left.length - (fraction.length - unread.length : Nat)
  let float (e : Int) := (Binary64.ofDecimalTwice n e).map fun x => Number.float (x.withSign l.negative)
  match l.exponent with
  | none => float place
  | some (down, ds) =>
    let e := (Numeral.decimal? ds).getD 0
    if e ≤ exponentLimit then float (if down then place - e else place + e)
    else if n = 0 ∨ down then some (.float (Binary64.zero l.negative))
    else none

/-- The number of a literal; none if it is beyond the greatest float. -/
def Literal.number? (l : Literal) : Option Number :=
  match l.fraction, l.exponent with
  | none, none =>
    let n := (Numeral.decimal? l.whole).getD 0
    if l.negative then
      if 0 < n ∧ n ≤ 0x8000000000000000 then some (.whole (-(n : Int))) else l.float?
    else if n ≤ Numeral.max64 then some (.whole n)
    else l.float?
  | _, _ => l.float?

/-- Reads the digits before the point: at least one, and no zero before another. -/
def readWhole? (t : Text) : Option (Text × Text) :=
  match Numeral.leading t with
  | ([], _) => none
  | ('0' :: _ :: _, _) => none
  | r => some r

/-- Reads a point and digits, if there is a point; then there is at least one digit. -/
def readFraction? : Text → Option (Option Text × Text)
  | '.' :: t =>
    match Numeral.leading t with
    | ([], _) => none
    | (ds, rest) => some (some ds, rest)
  | t => some (none, t)

/-- Reads a number; the flag says that a minus sign came before. -/
def readNumber? (negative : Bool) (t : Text) : Option (Number × Text) := do
  let (whole, t) ← readWhole? t
  let (fraction, t) ← readFraction? t
  let (exponent, t) ← Numeral.exponent? t
  let n ← Literal.number? ⟨negative, whole, fraction, exponent⟩
  some (n, t)

/-! ## Tokens -/

/-- The token of a character that is one by itself. -/
def mark? (c : Char) : Option Token :=
  if c = '[' then some .beginArray
  else if c = ']' then some .endArray
  else if c = '\x7b' then some .beginObject
  else if c = '\x7d' then some .endObject
  else if c = ',' then some .comma
  else if c = ':' then some .colon
  else none

/-- The words and their values. -/
def words : List (Text × Json) :=
  [("null".toList, .null), ("true".toList, .bool true), ("false".toList, .bool false)]

/-- Reads one of the words. -/
def readWord? (t : Text) : Option (Json × Text) :=
  words.findSome? fun (w, v) => (dropStart? w t).map fun rest => (v, rest)

/-- Reads the token that the text `c :: t` begins with. -/
def readToken? (c : Char) (t : Text) : Option (Token × Text) :=
  match mark? c with
  | some k => some (k, t)
  | none =>
    if c = '\x22' then (readString [] t).map fun (s, rest) => (.string s, rest)
    else if c = '-' then (readNumber? true t).map fun (n, rest) => (.scalar (.number n), rest)
    else if c.isDigit then
      (readNumber? false (c :: t)).map fun (n, rest) => (.scalar (.number n), rest)
    else (readWord? (c :: t)).map fun (v, rest) => (.scalar v, rest)

/-- The tokens of a text behind the tokens `done` in reverse. The first argument bounds their
    number; no text has more tokens than characters. -/
def tokensOnto (done : List Token) : Nat → Text → Option (List Token)
  | _, [] => some done.reverse
  | 0, _ :: _ => none
  | fuel + 1, c :: t =>
    if Text.isSpace c then tokensOnto done fuel t
    else
      match readToken? c t with
      | some (k, rest) => tokensOnto (k :: done) fuel rest
      | none => none

/-- The tokens of a text. -/
def tokens? (t : Text) : Option (List Token) := tokensOnto [] t.length t

end SessionGateway.Json
