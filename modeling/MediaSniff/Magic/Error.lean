/-
# MediaSniff.Magic.Error — why a content rule is refused

Each constructor is one cause; the texts it carries are the ones written in the rule.
-/
set_option autoImplicit false

namespace MediaSniff.Magic

/-- Why a content rule is refused. -/
inductive Error where
  | priorityOutOfRange (priority : Nat)
  | invalidOffset (text : String)
  | unknownValueType (kind : String)
  | emptyValue
  | invalidEscape (text : String)
  | invalidInteger (text : String) (width : Nat)
  | invalidMask (text : String)
  | maskLength (value mask : Nat)
  deriving DecidableEq, Repr

/-- The wording of each cause. -/
def Error.message : Error → String
  | .priorityOutOfRange priority => s!"priority {priority} out of range (expected 0-100)"
  | .invalidOffset text => s!"invalid offset '{text}'"
  | .unknownValueType kind => s!"unknown value type '{kind}'"
  | .emptyValue => "empty value"
  | .invalidEscape text => s!"invalid escape sequence in '{text}'"
  | .invalidInteger text width => s!"invalid {width}-byte integer '{text}'"
  | .invalidMask text => s!"invalid string mask '{text}'"
  | .maskLength value mask => s!"mask length {mask} does not match value length {value}"

end MediaSniff.Magic
