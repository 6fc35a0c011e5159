/-
# MediaSniff.Json.Whole — values taken as a whole

A reader that does not know the form of a document takes all of it in at once. It then
minds what other readers pass over: every string must have a text, every number must be
in the range of double precision, and nesting is bounded everywhere. Of a key that is
repeated the last value counts.
-/
import MediaSniff.Json.DoubleRange
import MediaSniff.Json.Parse

set_option autoImplicit false

namespace MediaSniff.Json

/-- Whether a value can be taken as a whole, with as many levels of arrays and objects
as are left. -/
def isWhole : (levels : Nat) → Json → Bool
  | _, .null => true
  | _, .bool _ => true
  | _, .number n => n.isFinite
  | _, .string text => text.isSome
  | levels + 1, .array elements => elements.all (isWhole levels)
  | levels + 1, .object members => members.all fun m => m.1.isSome && isWhole levels m.2
  | 0, _ => false

/-- How deeply arrays and objects may be nested. -/
def greatestWholeDepth : Nat := 127

/-- The value that a text spells, taken as a whole. -/
def parseWhole? (text : String) : Option Json :=
  (parse? text.toList).filter (isWhole greatestWholeDepth)

/-- The value of a key of an object: the last one if the key is repeated. -/
def member? (key : String) : Json → Option Json
  | .object members => ((members.filter (·.1 == some key)).getLast?).map (·.2)
  | _ => none

/-- The elements of an array. -/
def elements? : Json → Option (List Json)
  | .array elements => some elements
  | _ => none

/-- The text of a string. -/
def string? : Json → Option String
  | .string text => text
  | _ => none

end MediaSniff.Json
