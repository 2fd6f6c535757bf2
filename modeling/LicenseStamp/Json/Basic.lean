import LicenseStamp.Text.Basic

/-! # JSON values

The values of JSON. Numbers are kept as they are written and objects keep the order of
their members.
-/

namespace LicenseStamp

/-- A JSON value. -/
inductive Json where
  /-- The value `null`. -/
  | null
  /-- A truth value. -/
  | bool (value : Bool)
  /-- A number, as it is written. -/
  | number (lexeme : Text)
  /-- A text. -/
  | string (text : Text)
  /-- A list of values. -/
  | array (items : List Json)
  /-- Named values. -/
  | object (members : List (Text × Json))

namespace Json

/-- A counter. -/
def ofNat (n : Nat) : Json := .number (Text.ofNat n)

/-- The value of the first member with a name. -/
def member? (name : Text) : Json → Option Json
  | .object members => members.lookup name
  | _ => none

/-- The text of a text value. -/
def string? : Json → Option Text
  | .string text => some text
  | _ => none

/-- The truth value of a truth value. -/
def bool? : Json → Option Bool
  | .bool value => some value
  | _ => none

/-- The items of a list. -/
def items? : Json → Option (List Json)
  | .array items => some items
  | _ => none

/-- The natural number of a number that is written with digits only. -/
def nat? : Json → Option Nat
  | .number lexeme => Text.number? lexeme
  | _ => none

end Json

end LicenseStamp
