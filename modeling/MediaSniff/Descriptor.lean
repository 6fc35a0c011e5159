/-
# MediaSniff.Descriptor — a type database as it is written

A database document lists entries, each saying something about one media type: its
names and descriptions, and the rules by which it is recognised. The values of rules
are kept as the texts they are written in; compiling a rule is what gives them a
meaning. A type may be spoken of in several entries.
-/
set_option autoImplicit false

namespace MediaSniff

namespace Descriptor

/-- A filename rule. -/
structure GlobRule where
  pattern : String
  weight : Option Nat := none
  caseSensitive : Bool := false
  deriving DecidableEq, Repr, Inhabited

/-- One byte test: a value of a kind at an offset, with the tests that must follow it,
any one of which is enough. -/
structure MatchRule where
  offset : String
  kind : String
  value : String
  mask : Option String := none
  children : List MatchRule := []
  deriving Repr, Inhabited

/-- A content rule: alternative byte tests under one priority. -/
structure MagicRule where
  priority : Option Nat := none
  tests : List MatchRule := []
  deriving Repr, Inhabited

/-- One layout test: what a directory must hold at a path, with the tests that must
hold besides. -/
structure LayoutTest where
  path : String
  kind : Option String := none
  matchCase : Bool := false
  executable : Bool := false
  nonEmpty : Bool := false
  mimetype : Option String := none
  children : List LayoutTest := []
  deriving Repr, Inhabited

/-- A directory rule: alternative layout tests under one priority. -/
structure LayoutRule where
  priority : Option Nat := none
  tests : List LayoutTest := []
  deriving Repr, Inhabited

/-- The namespace and the local name of the root element of an XML document. -/
structure RootElement where
  namespaceUri : String := ""
  localName : String := ""
  deriving DecidableEq, Hashable, Repr, Inhabited

/-- All that one entry says about a media type. -/
structure Entry where
  name : String
  comment : String := ""
  acronym : Option String := none
  expandedAcronym : Option String := none
  icon : Option String := none
  genericIcon : Option String := none
  aliases : List String := []
  subClassOf : List String := []
  globs : List GlobRule := []
  magic : List MagicRule := []
  layouts : List LayoutRule := []
  rootElements : List RootElement := []
  deriving Repr, Inhabited

end Descriptor

/-- A database document. -/
structure Descriptor where
  entries : List Descriptor.Entry := []
  deriving Repr, Inhabited

end MediaSniff
