/-
# MediaSniff.TypeTable — names and comments in the order of the types

A table lists each type once, where its name first appears, with the first comment on it
that is not empty. It is what a program needs that wants to name types without compiling
their rules.
-/
import MediaSniff.Grouping

set_option autoImplicit false

namespace MediaSniff

/-- A name and a comment. -/
structure TypeRow where
  name : String
  comment : String
  deriving DecidableEq, Repr, Inhabited

namespace TypeTable

/-- The table of names and comments as they appear. -/
def ofRows (rows : List TypeRow) : List TypeRow :=
  (groups (·.name) rows).map fun group => ⟨group.1, firstText (group.2.map (·.comment))⟩

/-- The comment on a type, which must be given by its canonical name. -/
def commentFor? (table : List TypeRow) (name : String) : Option String :=
  (table.find? fun row => row.name == name).map (·.comment)

end TypeTable

end MediaSniff
