/-
  Payloads — decoded request bodies, arguments and results.

  A payload is a structured value, raw octets, or the fields of a form.  `Payload.toJson`
  is the structured view: raw octets are their Base64 text, and a field is an object that
  leaves out what it does not have.  `Payload.text` is the plain form, in which null is
  empty and octets are read as UTF-8.
-/
import SessionGateway.Json.Printer
import SessionGateway.Text.Base64
import SessionGateway.Text.Utf8

namespace SessionGateway

/-- A field of a form: what it says about itself, and its value. -/
structure Field (α : Type) where
  name : Option Text
  fileName : Option Text
  contentType : Option Text
  /-- The charset that the field declared. -/
  charset : Option Text
  value : α
  deriving Repr, BEq

/-- A decoded body, an argument or a result. -/
inductive Payload where
  | value (v : Json)
  | bytes (bs : Bytes)
  | fields (fs : List (Field Payload))
  deriving Repr, BEq

namespace Payload

/-- The value null. -/
def null : Payload := value .null

/-- The payload of a text. -/
def ofText (t : Text) : Payload := value (.string t)

def isNull : Payload → Bool
  | value .null => true
  | _ => false

def isFalse : Payload → Bool
  | value (.bool false) => true
  | _ => false

/-- Null, false, zero and the empty string. -/
def isFalsy : Payload → Bool
  | value .null => true
  | value (.bool b) => !b
  | value (.number n) => n.isZero
  | value (.string t) => t.isEmpty
  | _ => false

/-- The member of an object for a property that may be absent. -/
def member? (key : String) (t : Option Text) : Json.Members :=
  (t.map fun t => (key.toList, Json.string t)).toList

mutual

/-- The structured view. -/
def toJson : Payload → Json
  | value v => v
  | bytes bs => .string (Base64.encode bs)
  | fields fs => .array (fieldsJson fs)

/-- The structured views of fields. -/
def fieldsJson : List (Field Payload) → List Json
  | [] => []
  | ⟨name, fileName, contentType, charset, v⟩ :: fs =>
    .object (member? "name" name ++ member? "fileName" fileName ++
      member? "contentType" contentType ++ member? "charset" charset ++
      [("value".toList, v.toJson)]) :: fieldsJson fs

end

/-- The plain form. -/
def text : Payload → Text
  | value .null => []
  | value v => v.plain
  | bytes bs => Utf8.decodeLossy bs
  | fields fs => (Json.array (fieldsJson fs)).text

@[simp] theorem toJson_value (v : Json) : (value v).toJson = v := by simp [toJson]

end Payload

end SessionGateway
