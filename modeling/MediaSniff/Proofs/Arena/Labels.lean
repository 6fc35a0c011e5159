/-
# MediaSniff.Proofs.Arena.Labels — what stands in a forest stands in its cells

The cells of a forest that is laid out carry the labels of its trees, each as often as it
stands in them, and a level before anything below it (`map_label_nodes`).
-/
import MediaSniff.Arena

set_option autoImplicit false

namespace MediaSniff

variable {α : Type}

namespace Tree

mutual

/-- All labels below the root of a tree, a level before what is below it. -/
def labelsBelow : Tree α → List α
  | .node _ children => children.map label ++ labelsBelowEach children

/-- All labels below the roots of several trees. -/
def labelsBelowEach : List (Tree α) → List α
  | [] => []
  | t :: trees => labelsBelow t ++ labelsBelowEach trees

end

/-- All labels of a forest. -/
def labels (trees : List (Tree α)) : List α := trees.map label ++ labelsBelowEach trees

/-- Roots with a forest below each of them. -/
theorem labels_zipWith_node {roots : List α} {below : List (List (Tree α))}
    (long : roots.length = below.length) :
    labels (List.zipWith node roots below) = roots ++ below.flatMap labels := by
  have each : (List.zipWith node roots below).map label = roots ∧
      labelsBelowEach (List.zipWith node roots below) = below.flatMap labels := by
    induction roots generalizing below with
    | nil =>
        obtain rfl := List.eq_nil_of_length_eq_zero long.symm
        exact ⟨rfl, rfl⟩
    | cons root roots ih =>
        cases below with
        | nil => cases long
        | cons trees below =>
            obtain ⟨level, rest⟩ := ih (Nat.succ.inj long)
            rw [List.zipWith_cons_cons, List.map_cons, level, labelsBelowEach, rest]
            exact ⟨rfl, rfl⟩
  rw [labels, each.1, each.2]

end Tree

namespace Arena

mutual

theorem map_label_cellsBelow : ∀ (t : Tree α) (next : Nat),
    (cellsBelow t next).map (·.label) = t.labelsBelow
  | .node _ children, next => by
      have each := map_label_siblings children (next + children.length)
      rw [cellsBelow, Tree.labelsBelow, List.map_append, each.1, each.2]

theorem map_label_siblings : ∀ (trees : List (Tree α)) (next : Nat),
    (siblings trees next).1.map (·.label) = trees.map Tree.label ∧
      (siblings trees next).2.map (·.label) = Tree.labelsBelowEach trees
  | [], _ => ⟨rfl, rfl⟩
  | .node label children :: trees, next => by
      have block := map_label_cellsBelow (.node label children) next
      have others := map_label_siblings trees
        (next + (cellsBelow (.node label children) next).length)
      rw [siblings, Tree.labelsBelowEach, List.map_cons, List.map_append, others.1, others.2, block]
      exact ⟨rfl, rfl⟩

end

/-- **The labels of the cells are those of the forest.** -/
theorem map_label_nodes (trees : List (Tree α)) :
    (ofForest trees).nodes.toList.map (·.label) = Tree.labels trees := by
  have each := map_label_siblings trees trees.length
  rw [Tree.labels, ← each.1, ← each.2, ← List.map_append]
  rfl

/-- There are as many cells as labels. -/
theorem size_ofForest (trees : List (Tree α)) :
    (ofForest trees).size = (Tree.labels trees).length := by
  rw [← map_label_nodes, List.length_map, Array.length_toList, size]

end Arena

end MediaSniff
