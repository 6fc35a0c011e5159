/-
# MediaSniff.Layout.Table — classifying a directory by what it holds

The layout signatures of a database stand in the order in which they are tried: higher
priority first, then fewer tests, then the order of the database. The first that
matches decides.
-/
import MediaSniff.Layout.Signature
import MediaSniff.Sentinels

set_option autoImplicit false

namespace MediaSniff.Layout

/-- Whether a signature is tried before another, or may be. -/
def triedBefore (a b : Signature) : Bool :=
  if a.priority ≠ b.priority then b.priority < a.priority else a.nodeCount ≤ b.nodeCount

/-- All directory rules of a database, in the order in which they are tried. -/
structure Table where
  signatures : List Signature
  sentinels : Sentinels

namespace Table

def ofList (signatures : List Signature) (sentinels : Sentinels) : Table :=
  { signatures := signatures.mergeSort triedBefore, sentinels }

def size (t : Table) : Nat := t.signatures.length

def isEmpty (t : Table) : Bool := t.signatures.isEmpty

/-- The type of the first signature that a directory matches. -/
def classify? (t : Table) (globs : Glob.Index) (snapshot : Snapshot) : Option TypeId :=
  (t.signatures.find? (·.accepts globs snapshot)).map (·.owner)

end Table

end MediaSniff.Layout
