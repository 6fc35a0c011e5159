/-
# MediaSniff.Json.Value — JSON values

A value keeps what a reader may want to tell apart: the members of an object in the
order written, repeated keys included, and the parts of a number. A string that escapes
half of a surrogate pair has no text; it is harmless where its value is not asked for.
-/
import MediaSniff.Text.Numeral

set_option autoImplicit false

namespace MediaSniff

/-- The power of ten that a number is multiplied by. -/
structure Json.Exponent where
  negative : Bool := false
  digits : List Char
  deriving DecidableEq, Repr

/-- A number by its parts, in decimal digits: those behind the point and the power of ten
are present only if they are written. -/
structure Json.Number where
  negative : Bool := false
  whole : List Char
  fraction : Option (List Char) := none
  exponent : Option Json.Exponent := none
  deriving DecidableEq, Repr

/-- A JSON value. -/
inductive Json where
  | null
  | bool (b : Bool)
  | number (n : Json.Number)
  /-- No text means that half of a surrogate pair is escaped. -/
  | string (text : Option String)
  | array (elements : List Json)
  | object (members : List (Option String × Json))
  deriving Repr

namespace Json

/-- A string. -/
def ofString (s : String) : Json := .string (some s)

/-- A natural number. -/
def ofNat (n : Nat) : Json := .number { whole := Nat.toDigits 10 n }

/-- An object with plain keys. -/
def ofMembers (members : List (String × Json)) : Json :=
  .object (members.map fun m => (some m.1, m.2))

/-- The natural number below a bound that a number is if it is written as an integer. -/
def Number.toNat? (bound : Nat) (n : Number) : Option Nat :=
  if n.negative || n.fraction.isSome || n.exponent.isSome then none
  else Text.natural? 10 bound n.whole

end Json

end MediaSniff
