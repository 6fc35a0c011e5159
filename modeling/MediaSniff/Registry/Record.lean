/-
# MediaSniff.Registry.Record — one media type

A record holds what is known of a type apart from the rules by which it is recognised.
Its name is a category and a subtype with a slash between them; the first slash divides
them.
-/
import MediaSniff.Json.Value
import MediaSniff.TypeId

set_option autoImplicit false

namespace MediaSniff

/-- One media type. -/
structure TypeRecord where
  name : String
  comment : String := ""
  acronym : Option String := none
  expandedAcronym : Option String := none
  icon : Option String := none
  genericIcon : Option String := none
  aliases : List String := []
  /-- The direct superclasses, in the order declared. -/
  superclasses : List TypeId := []
  /-- Filename endings that speak for the type, each with its leading dot. -/
  extensions : List String := []
  deriving DecidableEq, Repr, Inhabited

namespace TypeRecord

/-- The bare record of a name, which must have a slash. -/
def ofName? (name : String) : Option TypeRecord :=
  if name.toList.contains '/' then some { name } else none

/-- What stands before the first slash of the name. -/
def category (r : TypeRecord) : String :=
  String.ofList (r.name.toList.takeWhile (· ≠ '/'))

/-- What stands behind the first slash of the name. -/
def subtype (r : TypeRecord) : String :=
  String.ofList ((r.name.toList.dropWhile (· ≠ '/')).drop 1)

/-- Whether a filename ending, with its leading dot, speaks for the type. -/
def hasExtension (r : TypeRecord) (ending : String) : Bool := r.extensions.contains ending

/-- The record as JSON. What is absent is left out. -/
def toJson (r : TypeRecord) : Json :=
  let optional (name : String) (text : Option String) : List (String × Json) :=
    (text.map fun t => (name, Json.ofString t)).toList
  .ofMembers <|
    [("name", .ofString r.name), ("comment", .ofString r.comment)] ++
    optional "acronym" r.acronym ++ optional "expanded_acronym" r.expandedAcronym ++
    optional "icon" r.icon ++ optional "generic_icon" r.genericIcon ++
    [("aliases", .array (r.aliases.map .ofString)),
      ("superclasses", .array (r.superclasses.map fun id => .ofNat id.index)),
      ("extensions", .array (r.extensions.map .ofString))]

end TypeRecord

end MediaSniff
