/-
# MediaSniff.Json.Fields — reading records out of JSON

A record is written as an object, or as an array of its fields in their order with any
number of them left out at the end. In an object other members are passed over, but no
field may be given twice. The readers below say of a field whether it must be there,
and whether `null` may stand for its absence.
-/
import MediaSniff.Json.Value

set_option autoImplicit false

namespace MediaSniff.Json

variable {α : Type}

/-- The members of an object; none if a key has no text. -/
def keyed? : List (Option String × Json) → Option (List (String × Json))
  | [] => some []
  | (none, _) :: _ => none
  | (some key, v) :: ms => (keyed? ms).map ((key, v) :: ·)

/-- The value of a field among members, if it is there; none if it is there twice. -/
def field? (members : List (String × Json)) (name : String) : Option (Option Json) :=
  match members.filter (·.1 == name) with
  | [] => some none
  | [m] => some (some m.2)
  | _ => none

/-- The values of the fields of a record, in the order of their names. -/
def fields? (names : List String) : Json → Option (List (Option Json))
  | .object members => (keyed? members).bind fun ms => names.mapM (field? ms)
  | .array elements =>
      if elements.length ≤ names.length then
        some (elements.map some ++ List.replicate (names.length - elements.length) none)
      else none
  | _ => none

/-- A text. -/
def text? : Json → Option String
  | .string text => text
  | _ => none

def flag? : Json → Option Bool
  | .bool b => some b
  | _ => none

/-- A natural number of 32 bits, written as an integer. -/
def unsigned32? : Json → Option Nat
  | .number n => n.toNat? (Nat.pow 2 32)
  | _ => none

/-- The elements of an array, all of one kind. -/
def list? (element? : Json → Option α) : Json → Option (List α)
  | .array elements => elements.mapM element?
  | _ => none

/-- A field that must be there. -/
def required (read? : Json → Option α) (field : Option Json) : Option α :=
  field.bind read?

/-- A field with a value to stand for its absence. -/
def withDefault (fallback : α) (read? : Json → Option α) : Option Json → Option α
  | none => some fallback
  | some v => read? v

/-- A field that may be absent or `null`. -/
def optional (read? : Json → Option α) : Option Json → Option (Option α)
  | none => some none
  | some .null => some none
  | some v => (read? v).map some

end MediaSniff.Json
