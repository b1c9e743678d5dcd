/-
  Media types — the text of `Content-Type` and `Accept` headers.

  * `Media.essence` is the type without its parameters, `Media.param?` the value of one
    parameter, without one pair of quotation marks around it;
  * `Media.admits` compares a type with a pattern whose halves may be `*`;
  * `Media.firstConcrete?` and `Media.accepts` read a list of patterns.
-/
import SessionGateway.Text.Blank

namespace SessionGateway.Media

/-! ## One type -/

/-- The part before the first semicolon, trimmed. -/
def essence (header : Text) : Text := Text.trim (header.takeWhile (· != ';'))

/-- The text without one pair of quotation marks around it. -/
def unquote (t : Text) : Text :=
  match t with
  | '\x22' :: rest => if rest.getLast? = some '\x22' then rest.dropLast else t
  | _ => t

/-- The value of the parameter `key` in one piece of a header. -/
def paramIn? (key piece : Text) : Option Text :=
  (cut? '=' (Text.trimStart piece)).bind fun (k, v) =>
    if Text.sameLetters k key then some (unquote (Text.trimEnd v)) else none

/-- The value of the first parameter `key` of a header; the case of the name does not matter. -/
def param? (header key : Text) : Option Text :=
  (header.splitOn ';').findSome? (paramIn? key)

/-- The value of the `charset` parameter. -/
def charset? (header : Text) : Option Text := param? header "charset".toList

/-! ## Patterns -/

/-- The two halves of a type; none if it has no slash, or a second one. -/
def halves? (media : Text) : Option (Text × Text) :=
  (cut? '/' media).filter fun (_, sub) => !sub.contains '/'

/-- Whether a half admits another: every one if it is `*`. -/
def admitsHalf (pattern half : Text) : Bool :=
  pattern == ['*'] || Text.sameLetters pattern half

/-- Whether a type satisfies a pattern. -/
def admits (pattern media : Text) : Bool :=
  match halves? pattern, halves? media with
  | some (p, ps), some (m, ms) => admitsHalf p m && admitsHalf ps ms
  | _, _ => false

/-- The patterns of an `Accept` header, without parameters. -/
def patterns (accept : Text) : List Text :=
  (accept.splitOn ',').map fun entry => essence (Text.trim entry)

/-- Whether a pattern has no `*` half. -/
def isConcrete (pattern : Text) : Bool :=
  match halves? pattern with
  | some (p, ps) => p != ['*'] && ps != ['*']
  | none => false

/-- The first pattern of an `Accept` header without a `*` half. -/
def firstConcrete? (accept : Text) : Option Text := (patterns accept).find? isConcrete

/-- Whether some pattern of an `Accept` header admits a type. -/
def accepts (accept media : Text) : Bool := (patterns accept).any fun p => admits p media

end SessionGateway.Media
