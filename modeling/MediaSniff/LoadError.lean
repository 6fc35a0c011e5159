/-
# MediaSniff.LoadError — why a database is refused

A database with any faulty rule is refused as a whole. Each constructor is one cause;
those that concern an entry carry the name of the media type first.
-/
import MediaSniff.Glob.Error
import MediaSniff.Magic.Error

set_option autoImplicit false

namespace MediaSniff

/-- Why a database is refused. -/
inductive LoadError where
  /-- The document does not have the form of a database. -/
  | malformed
  | invalidMediaType (name : String)
  | unknownType (type reference : String)
  | subclassCycle (type : String)
  | missingSentinel (name : String)
  | invalidGlob (type pattern : String) (cause : Glob.Error)
  | invalidWeight (type pattern : String) (weight : Nat)
  | invalidMagic (type : String) (cause : Magic.Error)
  | invalidPriority (type : String) (priority : Nat)
  /-- Neither a namespace nor a local name is given. -/
  | emptyRootElement (type : String)
  /-- There is white space in the namespace or the local name. -/
  | spacedRootElement (type : String)
  | duplicateRootElement (type namespaceUri localName : String)
  /-- A layout test names no path. -/
  | missingPath (type : String)
  /-- A layout test asks for an object of no known kind. -/
  | unknownObjectKind (type kind path : String)
  deriving DecidableEq, Repr

/-- The wording of each cause. -/
def LoadError.message : LoadError → String
  | .malformed => "failed to parse type database"
  | .invalidMediaType name => s!"invalid media type '{name}'"
  | .unknownType type reference => s!"{type}: reference to unknown type '{reference}'"
  | .subclassCycle type => s!"{type}: subclass hierarchy contains a cycle"
  | .missingSentinel name => s!"required type '{name}' is missing from the database"
  | .invalidGlob type pattern cause => s!"{type}: invalid glob '{pattern}': {cause.message}"
  | .invalidWeight type pattern weight =>
      s!"{type}: glob '{pattern}' has weight {weight} (expected 1-100)"
  | .invalidMagic type cause => s!"{type}: invalid magic: {cause.message}"
  | .invalidPriority type priority =>
      s!"{type}: priority {priority} out of range (expected 0-100)"
  | .emptyRootElement type =>
      s!"{type}: invalid root-xml entry: namespace-uri and local-name are both empty"
  | .spacedRootElement type =>
      s!"{type}: invalid root-xml entry: whitespace in namespace-uri or local-name"
  | .duplicateRootElement type namespaceUri localName =>
      s!"{type}: duplicate root-xml entry ('{namespaceUri}', '{localName}')"
  | .missingPath type => s!"{type}: invalid treematch: missing path"
  | .unknownObjectKind type kind path =>
      s!"{type}: invalid treematch: unknown object type '{kind}' at '{path}'"

/-- The wording of the fault in a rule that makes an entry faulty. -/
def LoadError.cause? : LoadError → Option String
  | .invalidGlob _ _ cause => some cause.message
  | .invalidMagic _ cause => some cause.message
  | _ => none

/-- The wording of a cause, and once more of what is behind it. -/
def LoadError.fullMessage (e : LoadError) : String :=
  match e.cause? with
  | some cause => s!"{e.message}: {cause}"
  | none => e.message

end MediaSniff
