/-
# MediaSniff.Layout.Snapshot — what a directory holds

A snapshot lists everything below a directory by its path, the names on the way joined
by slashes. It is kept twice, under the paths as they are and under the lowercased
paths, so that a test can respect case or ignore it. Where two entries fall on one key,
the later one stands.
-/
import MediaSniff.Text.Lowercase
import Std.Data.HashMap
import Std.Data.HashSet

set_option autoImplicit false

namespace MediaSniff.Layout

/-- What stands at a path. -/
inductive EntryKind where
  | file
  | directory
  | symlink
  | other
  deriving DecidableEq, Repr, Inhabited

/-- What is known of one entry: its own name, its kind, its size and its permission
bits. -/
structure Entry where
  name : String
  kind : EntryKind := .file
  size : Nat := 0
  mode : Nat := 0
  deriving DecidableEq, Repr, Inhabited

/-- The permission bits that let somebody execute a file. -/
def executeBits : Nat := 0x49

/-- Whether somebody may execute the entry. -/
def Entry.isExecutable (e : Entry) : Bool := e.mode &&& executeBits != 0

/-- Everything below a directory, under paths of one kind. -/
structure PathTable where
  entries : Std.HashMap String Entry := ∅
  /-- The paths below which something lies. -/
  holders : Std.HashSet String := ∅

namespace PathTable

/-- Note the paths that a path lies below. It is given in reverse. Once one of them is
known, all that it lies below are known too. -/
def addHolders (holders : Std.HashSet String) : (reversed : List Char) → Std.HashSet String
  | [] => holders
  | c :: cs =>
      if c = '/' then
        let holder := String.ofList cs.reverse
        if holders.contains holder then holders else addHolders (holders.insert holder) cs
      else addHolders holders cs

/-- Add an entry under its path. -/
def insert (t : PathTable) (path : String) (e : Entry) : PathTable where
  entries := t.entries.insert path e
  holders := addHolders t.holders path.toList.reverse

end PathTable

/-- Everything below a directory, under the paths as they are and lowercased. -/
structure Snapshot where
  exact : PathTable := {}
  lowered : PathTable := {}

namespace Snapshot

/-- Add an entry under its path. -/
def insert (s : Snapshot) (path : String) (e : Entry) : Snapshot where
  exact := s.exact.insert path e
  lowered := s.lowered.insert (Text.lowercase path) e

/-- The snapshot of a list of entries with their paths. -/
def ofList (entries : List (String × Entry)) : Snapshot :=
  entries.foldl (fun s entry => s.insert entry.1 entry.2) {}

/-- How many paths there are. -/
def size (s : Snapshot) : Nat := s.exact.entries.size

def isEmpty (s : Snapshot) : Bool := s.exact.entries.isEmpty

/-- The entries by path, as they are or lowercased. -/
def table (s : Snapshot) (matchCase : Bool) : PathTable := if matchCase then s.exact else s.lowered

/-- The entry at a path, which must be lowercased already if case is to be ignored. -/
def find? (s : Snapshot) (path : String) (matchCase : Bool) : Option Entry :=
  (s.table matchCase).entries[path]?

/-- Whether anything lies below a path. -/
def hasBelow (s : Snapshot) (path : String) (matchCase : Bool) : Bool :=
  (s.table matchCase).holders.contains path

end Snapshot

end MediaSniff.Layout
