/-
  TOML scalars — strings, numbers, dates and times.

  Each reader takes what a text begins with and leaves the rest.
-/
import SessionGateway.Number.Binary64
import SessionGateway.Toml.Node

namespace SessionGateway.Toml

/-- What reads the beginning of a text and leaves the rest. -/
abbrev Reader (α : Type) := Text → Option (α × Text)

/-! ## Strings -/

/-- Whether a character may stand in a line of text: no control character but the tab. -/
def isPlain (c : Char) : Bool := c == '\t' || (0x20 ≤ c.toNat && c.toNat != 0x7F)

/-- Whether a character is a space or a tab. -/
def isBlank (c : Char) : Bool := c == ' ' || c == '\t'

/-- The character of hexadecimal digits, if it has one. -/
def charOfHex? (ds : Text) : Option Char :=
  (Numeral.hex? ds).bind fun n => if n.isValidChar then some (Char.ofNat n) else none

/-- The character that a backslash and a letter stand for. -/
def escaped? (c : Char) : Option Char :=
  if c = 'b' then some '\x08'
  else if c = 't' then some '\t'
  else if c = 'n' then some '\n'
  else if c = 'f' then some '\x0c'
  else if c = 'r' then some '\r'
  else if c = '\x22' ∨ c = '\\' then some c
  else none

/-- Reads a string up to its quotation mark, behind the characters `done` in reverse. -/
def basic (done : Text) : Reader Text
  | [] => none
  | '\\' :: 'u' :: a :: b :: c :: d :: t => (charOfHex? [a, b, c, d]).bind fun x => basic (x :: done) t
  | '\\' :: 'U' :: a :: b :: c :: d :: e :: f :: g :: h :: t =>
    (charOfHex? [a, b, c, d, e, f, g, h]).bind fun x => basic (x :: done) t
  | '\\' :: c :: t => (escaped? c).bind fun x => basic (x :: done) t
  | c :: t =>
    if c = '\x22' then some (done.reverse, t)
    else if c ≠ '\\' ∧ isPlain c then basic (c :: done) t
    else none
termination_by t => t.length
decreasing_by all_goals (simp only [List.length_cons]; omega)

/-- Reads a string without escapes up to its apostrophe. -/
def literal (t : Text) : Option (Text × Text) :=
  match t.span fun c => isPlain c && c != '\x27' with
  | (s, '\x27' :: rest) => some (s, rest)
  | _ => none

/-- The quotation marks that belong to a string of several lines, among those behind its first
    three closing ones; and the rest. -/
def closing (mark : Char) : Text → Text × Text
  | a :: b :: t => if a = mark ∧ b = mark then ([mark, mark], t) else
      if a = mark then ([mark], b :: t) else ([], a :: b :: t)
  | [a] => if a = mark then ([mark], []) else ([], [a])
  | [] => ([], [])

/-- Whether a text begins with a line end, behind blanks. -/
def endsLine (t : Text) : Bool :=
  match t.dropWhile isBlank with
  | '\n' :: _ => true
  | '\r' :: '\n' :: _ => true
  | _ => false

/-- Reads a string of several lines, behind the characters `done` in reverse. While `skipping`,
    blanks and line ends are dropped. -/
def longBasic (done : Text) (skipping : Bool) : Reader Text
  | [] => none
  | '\x22' :: '\x22' :: '\x22' :: t =>
    let (marks, rest) := closing '\x22' t
    some (done.reverse ++ marks, rest)
  | '\\' :: 'u' :: a :: b :: c :: d :: t =>
    (charOfHex? [a, b, c, d]).bind fun x => longBasic (x :: done) false t
  | '\\' :: 'U' :: a :: b :: c :: d :: e :: f :: g :: h :: t =>
    (charOfHex? [a, b, c, d, e, f, g, h]).bind fun x => longBasic (x :: done) false t
  | '\\' :: c :: t =>
    if endsLine (c :: t) then longBasic done true (c :: t)
    else (escaped? c).bind fun x => longBasic (x :: done) false t
  | '\r' :: '\n' :: t => if skipping then longBasic done true t else longBasic ('\n' :: done) false t
  | c :: t =>
    if skipping && (isBlank c || c == '\n') then longBasic done true t
    else if c = '\n' ∨ (c ≠ '\\' ∧ isPlain c) then longBasic (c :: done) false t
    else none
termination_by t => t.length
decreasing_by all_goals (simp only [List.length_cons]; omega)

/-- Reads a string of several lines without escapes. -/
def longLiteral (done : Text) : Reader Text
  | [] => none
  | '\x27' :: '\x27' :: '\x27' :: t =>
    let (marks, rest) := closing '\x27' t
    some (done.reverse ++ marks, rest)
  | '\r' :: '\n' :: t => longLiteral ('\n' :: done) t
  | c :: t => if c = '\n' ∨ isPlain c then longLiteral (c :: done) t else none
termination_by t => t.length
decreasing_by all_goals (simp only [List.length_cons]; omega)

/-- The text without the line end that it begins with. -/
def dropLineEnd : Text → Text
  | '\n' :: t => t
  | '\r' :: '\n' :: t => t
  | t => t

/-- Reads a string of any of the four forms. -/
def string : Reader Text
  | '\x22' :: '\x22' :: '\x22' :: t => longBasic [] false (dropLineEnd t)
  | '\x27' :: '\x27' :: '\x27' :: t => longLiteral [] (dropLineEnd t)
  | '\x22' :: t => basic [] t
  | '\x27' :: t => literal t
  | _ => none

/-! ## Numbers -/

/-- Reads the digits that follow others: an underscore stands only between two digits. -/
def moreDigits (isDigit : Char → Bool) (done : Text) : Text → Text × Text
  | '_' :: c :: t =>
    if isDigit c then moreDigits isDigit (c :: done) t else (done.reverse, '_' :: c :: t)
  | c :: t => if isDigit c then moreDigits isDigit (c :: done) t else (done.reverse, c :: t)
  | [] => (done.reverse, [])

/-- Reads at least one digit. -/
def digits (isDigit : Char → Bool) : Reader Text
  | c :: t => if isDigit c then some (moreDigits isDigit [c] t) else none
  | [] => none

/-- Reads decimal digits without a zero before another. -/
def wholeDigits : Reader Text
  | '0' :: t => some (['0'], t)
  | t => digits Char.isDigit t

/-- Reads digits of a base behind its letters. -/
def based (base : Nat) (value? : Char → Option Nat) : Reader Int := fun t =>
  (digits (fun c => (value? c).isSome) t).bind fun (ds, rest) =>
    (Numeral.digits? value? base 0 ds).map fun n => ((n : Int), rest)

/-- The value of a digit below the given one. -/
def digitBelow? (limit : Nat) (c : Char) : Option Nat := (Numeral.digit? c).filter (· < limit)

/-- Reads a whole number of sixty-four bits. -/
def integer : Reader Int := fun t => do
  let (i, rest) ←
    match t with
    | '0' :: 'x' :: u => based 16 Numeral.hexDigit? u
    | '0' :: 'o' :: u => based 8 (digitBelow? 8) u
    | '0' :: 'b' :: u => based 2 (digitBelow? 2) u
    | _ => do
      let (negative, u) := Numeral.sign t
      let (ds, rest) ← wholeDigits u
      let n ← Numeral.decimal? ds
      some (if negative then -(n : Int) else n, rest)
  if Numeral.fitsSigned64 i then some (i, rest) else none

/-- Reads the digits behind a point. -/
def fractionDigits : Reader Text
  | '.' :: t => digits Char.isDigit t
  | _ => none

/-- Reads an exponent. -/
def exponent : Reader Int
  | c :: t =>
    if c = 'e' ∨ c = 'E' then
      let (down, u) := Numeral.sign t
      (digits Char.isDigit u).map fun (ds, rest) =>
        let e : Int := (Numeral.decimal? ds).getD 0
        (if down then -e else e, rest)
    else none
  | [] => none

/-- Reads a number with a fraction, an exponent or both; one above the greatest float is refused. -/
def float : Reader Unit := fun t => do
  let (negative, u) := Numeral.sign t
  let (ds, u) ← wholeDigits u
  let fraction := fractionDigits u
  let (fs, u) := fraction.getD ([], u)
  let power := exponent u
  if fraction.isNone ∧ power.isNone then none
  let (e, rest) := power.getD (0, u)
  let n ← Numeral.decimal? (ds ++ fs)
  if negative ∨ (Binary64.ofDecimal n (e - fs.length)).isSome then some ((), rest) else none

/-- Reads infinity or the value that is no number. -/
def specialFloat : Reader Unit := fun t =>
  let (_, u) := Numeral.sign t
  ((dropStart? "inf".toList u).or (dropStart? "nan".toList u)).map fun rest => ((), rest)

/-! ## Dates and times -/

/-- Reads `count` digits as a number between two bounds. -/
def fixed (count least greatest : Nat) : Reader Nat := fun t =>
  let ds := t.take count
  if ds.length = count ∧ ds.all Char.isDigit then
    ((Numeral.decimal? ds).filter fun n => least ≤ n && n ≤ greatest).map fun n =>
      (n, t.drop count)
  else none

/-- Reads one character. -/
def mark (c : Char) : Reader Unit := fun t => (dropStart? [c] t).map fun rest => ((), rest)

/-- The number of days of a month. -/
def daysIn (year month : Nat) : Nat :=
  if month = 2 then
    if year % 4 = 0 ∧ (year % 100 ≠ 0 ∨ year % 400 = 0) then 29 else 28
  else if month ∈ [4, 6, 9, 11] then 30
  else 31

/-- Reads a date. -/
def date : Reader Unit := fun t => do
  let (year, t) ← fixed 4 0 9999 t
  let (_, t) ← mark '-' t
  let (month, t) ← fixed 2 1 12 t
  let (_, t) ← mark '-' t
  let (_, t) ← fixed 2 1 (daysIn year month) t
  some ((), t)

/-- Reads a time of day; a second may be a leap second. -/
def time : Reader Unit := fun t => do
  let (_, t) ← fixed 2 0 23 t
  let (_, t) ← mark ':' t
  let (_, t) ← fixed 2 0 59 t
  let (_, t) ← mark ':' t
  let (_, t) ← fixed 2 0 60 t
  match t with
  | '.' :: u =>
    match Numeral.leading u with
    | ([], _) => some ((), t)
    | (_, rest) => some ((), rest)
  | _ => some ((), t)

/-- Reads the offset of a time from universal time, if there is one. -/
def offset : Reader Unit := fun t =>
  match t with
  | c :: u =>
    if c = 'Z' ∨ c = 'z' then some ((), u)
    else if c = '+' ∨ c = '-' then do
      let (_, u) ← fixed 2 0 23 u
      let (_, u) ← mark ':' u
      let (_, u) ← fixed 2 0 59 u
      some ((), u)
    else some ((), t)
  | [] => some ((), t)

/-- Reads a date with or without a time, or a time. -/
def moment : Reader Unit := fun t =>
  match date t with
  | none => time t
  | some (_, rest) =>
    match rest with
    | c :: u =>
      if c = 'T' ∨ c = 't' ∨ c = ' ' then
        match time u with
        | some (_, u) => offset u
        | none => some ((), rest)
      else some ((), rest)
    | [] => some ((), rest)

/-- Reads a scalar. -/
def scalar : Reader Node := fun t =>
  match t with
  | [] => none
  | c :: _ =>
    if c = '\x22' ∨ c = '\x27' then (string t).map fun (s, rest) => (.text s, rest)
    else if let some rest := dropStart? "true".toList t then some (.boolean true, rest)
    else if let some rest := dropStart? "false".toList t then some (.boolean false, rest)
    else
      ((((moment t).map fun (_, rest) => (Node.moment, rest)).or
        ((float t).map fun (_, rest) => (Node.float, rest))).or
        ((specialFloat t).map fun (_, rest) => (Node.float, rest))).or
        ((integer t).map fun (i, rest) => (Node.integer i, rest))

end SessionGateway.Toml
