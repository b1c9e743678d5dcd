/-
  Socket addresses — an IP address and a port.

  An address of the fourth version is four numbers below 256, without leading zeros.  One
  of the sixth version stands in brackets, as groups of at most four hexadecimal digits;
  two colons stand once for groups of zero, the last two groups may be an address of the
  fourth version, and a percent sign may add the number of a scope.  A port is a number of
  sixteen bits.
-/
import SessionGateway.Text.Numeral

namespace SessionGateway.Config

/-- Whether a text is a number of decimal digits up to `limit`. -/
def isNumber (limit : Nat) (t : Text) : Bool := (Numeral.decimal? t).any (· ≤ limit)

/-- Whether a text is a port. -/
def isPort (t : Text) : Bool := isNumber 65535 t

/-- Whether a text is a number of an address of the fourth version. -/
def isByteNumber (t : Text) : Bool :=
  t.length ≤ 3 && isNumber 255 t && (t.length == 1 || t.head? != some '0')

/-- Whether a text is an address of the fourth version. -/
def isAddress4 (t : Text) : Bool :=
  let numbers := t.splitOn '.'
  numbers.length == 4 && numbers.all isByteNumber

/-- Whether a text is a group of an address of the sixth version. -/
def isGroup (t : Text) : Bool := t.length ≤ 4 && (Numeral.hex? t).isSome

/-- The number of groups that colons divide, none for an empty text; the last two may be an
    address of the fourth version where `mixed` says so. -/
def groups? (mixed : Bool) (t : Text) : Option Nat :=
  if t.isEmpty then some 0
  else
    let gs := t.splitOn ':'
    if gs.all isGroup then some gs.length
    else if mixed && gs.dropLast.all isGroup && (gs.getLast?.any isAddress4) then
      some (gs.length + 1)
    else none

/-- Whether a text is an address of the sixth version. -/
def isAddress6 (t : Text) : Bool :=
  match cutAt? "::".toList t with
  | none => groups? true t == some 8
  | some (before, after) =>
    match groups? false before, groups? true after with
    | some m, some n => m + n ≤ 7
    | _, _ => false

/-- Whether a text is an address of the sixth version with or without a scope. -/
def isScoped6 (t : Text) : Bool :=
  match cut? '%' t with
  | none => isAddress6 t
  | some (address, scope) => isAddress6 address && isNumber Numeral.max32 scope

/-- Whether a text is an IP address and a port. -/
def isSocketAddress (t : Text) : Bool :=
  match dropStart? ['['] t with
  | some u =>
    match cut? ']' u with
    | some (address, ':' :: port) => isScoped6 address && isPort port
    | _ => false
  | none =>
    match cut? ':' t with
    | some (address, port) => isAddress4 address && isPort port
    | none => false

end SessionGateway.Config
