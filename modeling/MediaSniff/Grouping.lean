/-
# MediaSniff.Grouping — lists without repetition, lists by key

`distinct` keeps of equal members of a list the first. `groups` brings together the
members that have one key; the groups stand in the order in which their keys first
appear, and the members of each in their own order. Both go through a list once.
-/
import Std.Data.HashMap
import Std.Data.HashSet

set_option autoImplicit false

namespace MediaSniff

variable {α κ : Type} [BEq κ] [Hashable κ]

/-- The members of a list that have not been seen, each once. -/
def distinctAfter (seen : Std.HashSet κ) : List κ → List κ
  | [] => []
  | k :: ks =>
      if seen.contains k then distinctAfter seen ks else k :: distinctAfter (seen.insert k) ks

/-- The members of a list, each once. -/
def distinct (ks : List κ) : List κ := distinctAfter ∅ ks

/-- The members of a list, filed under their keys. -/
def filed (key : α → κ) (members : List α) : Std.HashMap κ (List α) :=
  members.foldr (fun a files => files.insert (key a) (a :: files.getD (key a) [])) ∅

/-- The members of a list by their keys. -/
def groups (key : α → κ) (members : List α) : List (κ × List α) :=
  let files := filed key members
  (distinct (members.map key)).map fun k => (k, files.getD k [])

/-- The first text that is not empty. -/
def firstText? (texts : List String) : Option String := texts.find? fun text => !text.isEmpty

/-- The first text that is not empty, or the empty text. -/
def firstText (texts : List String) : String := (firstText? texts).getD ""

end MediaSniff
