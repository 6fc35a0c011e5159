/-
# MediaSniff.Registry.Basic — the types of a database

A registry holds the records of a database in the order of their numbers, and finds
them by name. A canonical name stands before any alias; of several types that claim one
alias, the first has it.
-/
import MediaSniff.Registry.Record
import Std.Data.HashMap

set_option autoImplicit false

namespace MediaSniff

/-- The types of a database. -/
structure Registry where
  records : Array TypeRecord
  byName : Std.HashMap String TypeId

namespace Registry

/-- Records with their numbers. -/
def numbered (records : List TypeRecord) : List (TypeId × TypeRecord) :=
  records.zipIdx.map fun entry => (⟨entry.2⟩, entry.1)

/-- Enter the canonical names. -/
def enterNames (names : Std.HashMap String TypeId) (entries : List (TypeId × TypeRecord)) :
    Std.HashMap String TypeId :=
  entries.foldl (fun names e => names.insert e.2.name e.1) names

/-- Enter the aliases that are not names yet. -/
def enterAliases (names : Std.HashMap String TypeId) (entries : List (TypeId × TypeRecord)) :
    Std.HashMap String TypeId :=
  entries.foldl
    (fun names e => e.2.aliases.foldl (fun names a => names.insertIfNew a e.1) names) names

/-- The registry of records in the order of their numbers. -/
def ofList (records : List TypeRecord) : Registry where
  records := records.toArray
  byName := enterAliases (enterNames ∅ (numbered records)) (numbered records)

/-- How many types there are. -/
def size (r : Registry) : Nat := r.records.size

def isEmpty (r : Registry) : Bool := r.records.isEmpty

/-- The record of a number; none if the registry has no such type. -/
def get? (r : Registry) (id : TypeId) : Option TypeRecord := r.records[id.index]?

/-- The canonical name of a number; empty if the registry has no such type. -/
def nameOf (r : Registry) (id : TypeId) : String := (r.get? id).elim "" (·.name)

/-- The type of a canonical name or an alias. -/
def lookup? (r : Registry) (name : String) : Option TypeId := r.byName[name]?

/-- All types with their numbers. -/
def toList (r : Registry) : List (TypeId × TypeRecord) := numbered r.records.toList

/-- The direct superclasses of a type; none for a number without a type. -/
def parents (r : Registry) (id : TypeId) : List TypeId := (r.get? id).elim [] (·.superclasses)

end Registry

end MediaSniff
