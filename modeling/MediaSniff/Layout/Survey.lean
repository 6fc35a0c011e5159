/-
# MediaSniff.Layout.Survey — a directory found from a path

A path may lead to a directory or to something in a directory. A survey holds the
directory in question and says which of the two is the case.
-/
import MediaSniff.Layout.Snapshot

set_option autoImplicit false

namespace MediaSniff.Layout

/-- A directory that a path leads to, or that holds what the path leads to. -/
structure Survey where
  /-- Whether the path leads to the directory itself. -/
  isDirectory : Bool
  snapshot : Snapshot

end MediaSniff.Layout
