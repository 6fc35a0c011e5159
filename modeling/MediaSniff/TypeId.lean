/-
# MediaSniff.TypeId — numbers of media types

The types of a database are numbered from zero in the order in which their names first
appear. Every rule carries the number of the type that owns it. A `TypeId` says nothing
about a database: whether it is one of its types is asked of the registry.
-/
set_option autoImplicit false

namespace MediaSniff

/-- The number of a media type. -/
structure TypeId where
  index : Nat
  deriving DecidableEq, Repr, Hashable, Inhabited

namespace TypeId

/-- Written with a number sign. -/
def display (id : TypeId) : String := s!"#{id.index}"

end TypeId

end MediaSniff
