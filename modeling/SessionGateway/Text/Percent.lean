/-
  Percent escapes and URL-encoded forms.

  A percent sign followed by two hexadecimal digits stands for an octet; any other
  percent sign stands for itself.  A form is a sequence of pairs divided by `&`, each a
  name and a value divided by the first `=`, in which `+` stands for a space.

  * `Percent.decode` gives the octets of an escaped text;
  * `Form.pairs` reads a form as its list of pairs, in order, repeated names included;
  * `Form.field` is the text of a name or value, where broken octets are replaced.
-/
import SessionGateway.Text.Numeral
import SessionGateway.Text.Utf8

namespace SessionGateway

/-- The octets of a text with percent escapes. -/
def Percent.decode : Text → Bytes
  | [] => []
  | '%' :: h :: l :: rest =>
    match Numeral.hexDigit? h, Numeral.hexDigit? l with
    | some h', some l' => UInt8.ofNat (16 * h' + l') :: Percent.decode rest
    | _, _ => 0x25 :: Percent.decode (h :: l :: rest)
  | c :: rest => Utf8.encodeChar c ++ Percent.decode rest
termination_by t => t.length
decreasing_by all_goals (simp only [List.length_cons]; omega)

namespace Form

/-- The text of a name or value: `+` is a space, escapes are octets of UTF-8. -/
def field (t : Text) : Text :=
  Utf8.decodeLossy (Percent.decode (t.map fun c => if c = '+' then ' ' else c))

/-- A pair: a piece without `=` is a name with an empty value. -/
def pair (piece : Text) : Text × Text :=
  match cut? '=' piece with
  | some (name, value) => (field name, field value)
  | none => (field piece, [])

/-- The pairs of a form, in order; empty pieces are skipped. -/
def pairs (t : Text) : List (Text × Text) :=
  ((t.splitOn '&').filter (!·.isEmpty)).map pair

end Form

end SessionGateway
