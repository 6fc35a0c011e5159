/-
# MediaSniff.Arena — forests as flat arrays of cells

The rules inside a signature form a forest. It is stored flat: siblings stand side by
side, and each cell names the span of its children. `ofForest` lays the roots first;
then, for each of them in turn, the block of everything below it, built the same way.
So the children of a cell always stand after it, and a walk down the spans ends after
at most `nodes.size` steps; that number is the fuel of the walks below.

A cell without children has the empty span at zero.
-/
set_option autoImplicit false

namespace MediaSniff

/-- A tree of labels. -/
inductive Tree (α : Type) where
  | node (label : α) (children : List (Tree α))

namespace Tree

variable {α : Type}

def label : Tree α → α
  | .node a _ => a

def children : Tree α → List (Tree α)
  | .node _ ts => ts

end Tree

/-- A run of neighbouring cells. -/
structure Span where
  start : Nat
  length : Nat
  deriving DecidableEq, Repr

namespace Span

/-- The span of no cells. -/
def empty : Span := ⟨0, 0⟩

/-- The span of `length` cells from `start` on; all empty spans are one. -/
def sized (start length : Nat) : Span := if length = 0 then empty else ⟨start, length⟩

def isEmpty (s : Span) : Bool := s.length == 0

/-- The indices of the cells in a span. -/
def indices (s : Span) : List Nat := List.range' s.start s.length

end Span

/-- A label and the span of its children. -/
structure Cell (α : Type) where
  label : α
  children : Span
  deriving DecidableEq, Repr

/-- A forest laid out flat. -/
structure Arena (α : Type) where
  nodes : Array (Cell α)
  roots : Span
  deriving DecidableEq, Repr

namespace Arena

variable {α : Type}

mutual

/-- The cells of everything below a tree, laid from index `next` on. -/
def cellsBelow : Tree α → (next : Nat) → List (Cell α)
  | .node _ children, next =>
      let (level, below) := siblings children (next + children.length)
      level ++ below

/-- The cells of sibling trees, and after them the blocks of all that is below each,
laid from index `next` on. -/
def siblings : List (Tree α) → (next : Nat) → List (Cell α) × List (Cell α)
  | [], _ => ([], [])
  | .node label children :: trees, next =>
      let block := cellsBelow (.node label children) next
      let (level, below) := siblings trees (next + block.length)
      (⟨label, Span.sized next children.length⟩ :: level, block ++ below)

end

/-- Lay a forest out. -/
def ofForest (trees : List (Tree α)) : Arena α :=
  let (level, below) := siblings trees trees.length
  { nodes := (level ++ below).toArray, roots := Span.sized 0 trees.length }

/-- How many cells there are. -/
def size (a : Arena α) : Nat := a.nodes.size

/-- Whether a way down from cell `i` to a cell without children passes only labels
that hold. -/
def wayDown (a : Arena α) (holds : α → Bool) : (fuel i : Nat) → Bool
  | 0, _ => false
  | fuel + 1, i =>
      match a.nodes[i]? with
      | none => false
      | some c =>
          holds c.label &&
            (c.children.isEmpty || c.children.indices.any (a.wayDown holds fuel))

/-- Whether the label of cell `i` and all labels below it hold. -/
def allBelow (a : Arena α) (holds : α → Bool) : (fuel i : Nat) → Bool
  | 0, _ => false
  | fuel + 1, i =>
      match a.nodes[i]? with
      | none => false
      | some c => holds c.label && c.children.indices.all (a.allBelow holds fuel)

/-- Whether a way down from some root passes only labels that hold. -/
def someWay (a : Arena α) (holds : α → Bool) : Bool :=
  a.roots.indices.any (a.wayDown holds a.size)

/-- Whether all labels of some root's tree hold. -/
def someTree (a : Arena α) (holds : α → Bool) : Bool :=
  a.roots.indices.any (a.allBelow holds a.size)

/-- The least total cost of a way down from some cell of a span to a cell without
children; zero for the empty span. -/
def cheapest (a : Arena α) (cost : α → Nat) : (fuel : Nat) → Span → Nat
  | 0, _ => 0
  | fuel + 1, span =>
      let ways := span.indices.filterMap fun i =>
        a.nodes[i]?.map fun c => cost c.label + a.cheapest cost fuel c.children
      ways.min?.getD 0

/-- The least total cost of a way down from some root. -/
def cheapestWay (a : Arena α) (cost : α → Nat) : Nat :=
  a.cheapest cost (a.size + 1) a.roots

end Arena

end MediaSniff
