/-
# MediaSniff.Host — what the program asks of its surroundings

A program that classifies documents has to open them, to look into directories, and to
read what it is given to read. A host answers these questions; what it does to find the
answers is its own affair.
-/
import MediaSniff.FileTree

set_option autoImplicit false

namespace MediaSniff

/-- The surroundings of a program. -/
structure Host (m : Type → Type) where
  /-- Open the document at a path, of which no more than `limit` bytes will be read. -/
  openAt : (limit : Option Nat) → (path : String) → m (Except Fault Stream)
  /-- The directory at a path, or the one that holds what stands there. -/
  survey : (path : String) → m (Except ReadError Layout.Survey)
  /-- What the program is given to read, of which no more than `limit` bytes will be. -/
  input : (limit : Nat) → m Stream

/-- A host whose documents stand in a file tree. -/
def FileTree.host (tree : FileTree) (input : Stream) : Host Id where
  openAt _ path := tree.openAt path
  survey path := tree.survey path
  input _ := input

end MediaSniff
