/-
# MediaSniff.Path — the steps of a path

A path is a sequence of names with slashes between them. Slashes that follow one another
count as one. A slash at the end says that the path must lead to a directory, which is
the same as a last step that stays where it is.
-/
set_option autoImplicit false

namespace MediaSniff.Path

/-- The step that stays where it is. -/
def stay : String := "."

/-- The step to the directory that holds the present one. -/
def up : String := ".."

/-- The names in a path. -/
def names (path : String) : List String :=
  ((path.toList.splitOn '/').filter fun name => !name.isEmpty).map String.ofList

/-- The steps of a path. -/
def steps (path : String) : List String :=
  names path ++ if path.toList.getLast? = some '/' then [stay] else []

/-- Whether a path starts at the root. -/
def isAbsolute (path : String) : Bool := path.toList.head? == some '/'

/-- The name of what a path leads to, if the path ends with a name. -/
def baseName? (path : String) : Option String :=
  ((names path).filter (· != stay)).getLast?.filter (· != up)

/-- The name of what a path leads to; empty if the path does not end with one. -/
def baseName (path : String) : String := (baseName? path).getD ""

/-- What to call a document at a path: its name, or else the path. -/
def displayName (path : String) : String := (baseName? path).getD path

/-- A path in reverse without the slashes and the steps that stay at its end. What makes
it start at the root, or where it is, is kept. -/
def trimEnd : List Char → List Char
  | ['/'] => ['/']
  | '/' :: cs => trimEnd cs
  | ['.'] => ['.']
  | ['.', '/'] => ['/']
  | '.' :: '/' :: cs => trimEnd cs
  | cs => cs

/-- The path of the directory in which the last name of a path stands. -/
def holder (path : String) : String :=
  match trimEnd (path.toList.reverse.dropWhile (· ≠ '/')) with
  | [] => stay
  | cs => String.ofList cs.reverse

/-- The path of what is found under a path at another one. -/
def under (path below : String) : String :=
  if path.toList.getLast? = some '/' then path ++ below else s!"{path}/{below}"

/-- The path of what stands under a name at a path; the empty path adds nothing. -/
def join (path name : String) : String := if path.isEmpty then name else s!"{path}/{name}"

end MediaSniff.Path
