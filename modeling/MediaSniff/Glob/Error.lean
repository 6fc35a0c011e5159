/-
# MediaSniff.Glob.Error — why a filename pattern is refused

Each constructor is one cause. The texts it carries are the ones its message quotes:
the whole pattern (lowercased when the rule ignores case), or the content of the
bracket expression at fault.
-/
set_option autoImplicit false

namespace MediaSniff.Glob

/-- Why a filename pattern is refused. -/
inductive Error where
  | empty
  | weightOutOfRange (weight : Nat)
  | unsupportedWildcard (text : String)
  | unbalancedBrackets (text : String)
  | emptyBracket (text : String)
  | misplacedDash (content : String)
  | backwardsRange (content : String)
  deriving DecidableEq, Repr

/-- The wording of each cause. -/
def Error.message : Error → String
  | .empty => "empty pattern"
  | .weightOutOfRange weight => s!"weight {weight} out of range (expected 1-100)"
  | .unsupportedWildcard text => s!"unsupported wildcard placement in '{text}'"
  | .unbalancedBrackets text => s!"unbalanced brackets in '{text}'"
  | .emptyBracket text => s!"empty bracket expression in '{text}'"
  | .misplacedDash content => s!"misplaced '-' in bracket expression '{content}'"
  | .backwardsRange content => s!"backwards range in bracket expression '{content}'"

end MediaSniff.Glob
