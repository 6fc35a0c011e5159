/-
# MediaSniff.Preference — what to trust

When the name of a document and its content disagree, a preference decides. By default
the content wins, unless the name was accepted by exactly one rule.
-/
import MediaSniff.Text.Lowercase

set_option autoImplicit false

namespace MediaSniff

/-- What to trust when name and content disagree. -/
inductive Preference where
  /-- The content, unless the name was accepted by exactly one rule. -/
  | default
  /-- The content. -/
  | magic
  /-- The name. -/
  | glob
  deriving DecidableEq, Repr, Inhabited

namespace Preference

def name : Preference → String
  | .default => "default"
  | .magic => "magic"
  | .glob => "glob"

/-- The preference of exactly this name. -/
def ofName? : String → Option Preference
  | "default" => some .default
  | "magic" => some .magic
  | "glob" => some .glob
  | _ => none

/-- What is said of a text that names no preference. -/
def refusal (text : String) : String :=
  s!"unknown preference '{text}' (expected default, magic or glob)"

/-- Read a name, in any mixture of ASCII case. -/
def parse (text : String) : Except String Preference :=
  let lowered := Text.lowercaseAscii text
  (ofName? lowered).elim (.error (refusal lowered)) .ok

end Preference

end MediaSniff
