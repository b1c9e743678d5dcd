/-
  Headers — the named values in front of a message.

  A name is a token in small letters and may have several values; a value is a byte
  string.  `Headers` keeps the entries in the order in which they were added.

  * `Header.text?` is the text of a value, which has one only if every octet is a visible
    ASCII character, a space or a tab;
  * `Header.ofText?` is the value that writes a text; there is none with a control
    character other than the tab;
  * `Headers.set` and `Headers.add` drop a text that no value can write.
-/
import SessionGateway.Text.Utf8

namespace SessionGateway

namespace Header

/-! ## Names and values -/

/-- The characters of a token besides letters and digits. -/
def tokenMarks : Text := "!#$%&'*+-.^_`|~".toList

/-- Whether a character may stand in a token. -/
def isToken (c : Char) : Bool := c.isAlphanum || tokenMarks.contains c

/-- The greatest length of a name. -/
def nameLimit : Nat := 65535

/-- The name that a text stands for: a token in small letters. -/
def name? (t : Text) : Option Text :=
  if !t.isEmpty && t.length ≤ nameLimit && t.all isToken then some t.lower else none

/-- Whether an octet belongs to readable text. -/
def isVisible (b : UInt8) : Bool := b == 9 || (0x20 ≤ b && b ≤ 0x7E)

/-- Whether an octet may stand in a value that is set. -/
def isAllowed (b : UInt8) : Bool := b == 9 || (0x20 ≤ b && b != 0x7F)

/-- The text of a value. -/
def text? (value : Bytes) : Option Text :=
  if value.all isVisible then some (value.map fun b => Char.ofNat b.toNat) else none

/-- The value, if it may be set. -/
def checked? (value : Bytes) : Option Bytes := if value.all isAllowed then some value else none

/-- The value that writes a text. -/
def ofText? (t : Text) : Option Bytes := checked? (Utf8.encode t)

end Header

/-! ## Entries -/

/-- The headers of a message, names in small letters. -/
structure Headers where
  entries : List (Text × Bytes)
  deriving DecidableEq, Repr

namespace Headers

/-- No headers. -/
def empty : Headers := ⟨[]⟩

/-- The first value of a name. -/
def get? (h : Headers) (name : Text) : Option Bytes := h.entries.lookup name

/-- The values of a name, in order. -/
def getAll (h : Headers) (name : Text) : List Bytes :=
  h.entries.filterMap fun (n, v) => if n = name then some v else none

/-- Whether a name has a value. -/
def has (h : Headers) (name : Text) : Bool := (h.get? name).isSome

/-- The text of the first value of a name. -/
def text? (h : Headers) (name : Text) : Option Text := (h.get? name).bind Header.text?

/-- Adds a value behind those a name has. -/
def append (h : Headers) (name : Text) (value : Bytes) : Headers :=
  ⟨h.entries ++ [(name, value)]⟩

/-- Removes every value of a name. -/
def erase (h : Headers) (name : Text) : Headers := ⟨h.entries.filter (·.1 != name)⟩

/-- Gives a name one value in place of those it has. -/
def insert (h : Headers) (name : Text) (value : Bytes) : Headers := (h.erase name).append name value

/-- The headers with the given names and values, in order. -/
def ofList (entries : List (Text × Bytes)) : Headers :=
  ⟨entries.map fun (n, v) => (Text.lower n, v)⟩

/-- Gives a name the value that writes a text, if there is one. -/
def set (h : Headers) (name t : Text) : Headers :=
  match Header.ofText? t with
  | some value => h.insert name value
  | none => h

/-- Adds the value that writes a text, if there is one. -/
def add (h : Headers) (name t : Text) : Headers :=
  match Header.ofText? t with
  | some value => h.append name value
  | none => h

theorem mem_insert {h : Headers} {name : Text} {value : Bytes} {e : Text × Bytes}
    (he : e ∈ (h.insert name value).entries) : e ∈ h.entries ∨ e = (name, value) := by
  simp only [insert, append, erase, List.mem_append, List.mem_filter, List.mem_singleton] at he
  exact he.imp (·.1) id

theorem mem_append {h : Headers} {name : Text} {value : Bytes} {e : Text × Bytes} :
    e ∈ (h.append name value).entries ↔ e ∈ h.entries ∨ e = (name, value) := by
  simp [append]

theorem mem_erase {h : Headers} {name : Text} {e : Text × Bytes} :
    e ∈ (h.erase name).entries ↔ e ∈ h.entries ∧ e.1 ≠ name := by
  simp [erase]

theorem get?_append_of_ne {h : Headers} {name other : Text} (hn : other ≠ name) (value : Bytes) :
    (h.append name value).get? other = h.get? other := by
  have hb : (other == name) = false := beq_eq_false_iff_ne.2 hn
  simp only [get?, append, List.lookup_append, List.lookup_cons, hb, List.lookup_nil, Option.or_none]

theorem getAll_append_of_ne {h : Headers} {name other : Text} (hn : other ≠ name) (value : Bytes) :
    (h.append name value).getAll other = h.getAll other := by
  simp [getAll, append, List.filterMap_append, Ne.symm hn]

end Headers

end SessionGateway
