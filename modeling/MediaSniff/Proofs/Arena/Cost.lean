/-
# MediaSniff.Proofs.Arena.Cost — the cheapest way down a forest

A way down a tree, from its root to a leaf, costs what its labels cost together (`Tree.Way`). The
walk over the cells of a forest takes the least over a span of the cost of a cell and the least
below it, which is the least over all ways (`Arena.cheapestWay_ofForest`). A forest without trees
has no way; its least cost is zero, as that of nothing below a leaf.
-/
import MediaSniff.Proofs.Arena.Layout
import Mathlib.Order.Lattice.Nat

set_option autoImplicit false

namespace MediaSniff

variable {α : Type} {cost : α → Nat}

/-! ## Ways down -/

/-- Some way down the tree, from the root to a leaf, has this cost. -/
inductive Tree.Way (cost : α → Nat) : Tree α → Nat → Prop
  | leaf {label : α} : Way cost (.node label []) (cost label)
  | step {label : α} {children : List (Tree α)} {t : Tree α} {n : Nat} (mem : t ∈ children)
      (below : Way cost t n) : Way cost (.node label children) (cost label + n)

/-- The least cost of a way down one of several trees. -/
noncomputable def Tree.leastCost (cost : α → Nat) (trees : List (Tree α)) : Nat :=
  sInf {n | ∃ t ∈ trees, t.Way cost n}

namespace Tree

@[simp] theorem leastCost_nil : leastCost cost [] = 0 := by
  simp [leastCost]

theorem leastCost_le {trees : List (Tree α)} {t : Tree α} {n : Nat} (mem : t ∈ trees)
    (way : t.Way cost n) : leastCost cost trees ≤ n :=
  Nat.sInf_le ⟨t, mem, way⟩

theorem exists_way : ∀ t : Tree α, ∃ n, t.Way cost n
  | .node label [] => ⟨cost label, .leaf⟩
  | .node label (t :: _) => by
      obtain ⟨n, below⟩ : ∃ n, t.Way cost n := exists_way t
      exact ⟨cost label + n, .step List.mem_cons_self below⟩

theorem exists_cheapest {trees : List (Tree α)} {t : Tree α} (mem : t ∈ trees) :
    ∃ t' ∈ trees, t'.Way cost (leastCost cost trees) := by
  obtain ⟨n, way⟩ : ∃ n, t.Way cost n := exists_way t
  have given : {n | ∃ t' ∈ trees, t'.Way cost n}.Nonempty := ⟨n, t, mem, way⟩
  exact Nat.sInf_mem given

/-- A cheapest way down a tree goes on from its root as cheaply as can be. -/
theorem way_least (t : Tree α) : t.Way cost (cost t.label + leastCost cost t.children) := by
  obtain ⟨label, _ | ⟨t, trees⟩⟩ := t
  · rw [children, leastCost_nil]
    exact .leaf
  · obtain ⟨t', mem, way⟩ : ∃ t' ∈ t :: trees, t'.Way cost _ := exists_cheapest List.mem_cons_self
    exact .step mem way

theorem least_le_of_way {t : Tree α} {n : Nat} (way : t.Way cost n) :
    cost t.label + leastCost cost t.children ≤ n := by
  cases way with
  | leaf =>
      rw [children, leastCost_nil]
      exact Nat.le_refl _
  | step mem below => exact Nat.add_le_add_left (leastCost_le mem below) _

/-- The least cost over several trees is the least of theirs. -/
theorem leastCost_eq_min (trees : List (Tree α)) :
    leastCost cost trees =
      (trees.map fun t => cost t.label + leastCost cost t.children).min?.getD 0 := by
  cases least : (trees.map fun t => cost t.label + leastCost cost t.children).min? with
  | none =>
      rw [List.min?_eq_none_iff, List.map_eq_nil_iff] at least
      rw [least, leastCost_nil]
      rfl
  | some n =>
      obtain ⟨here, le⟩ := List.min?_eq_some_iff.1 least
      obtain ⟨t, mem, rfl⟩ := List.mem_map.1 here
      apply Nat.le_antisymm
      · exact leastCost_le mem (way_least t)
      · obtain ⟨t', mem', way⟩ : ∃ t' ∈ trees, t'.Way cost _ := exists_cheapest mem
        exact (le _ (List.mem_map_of_mem mem')).trans (least_le_of_way way)

end Tree

/-! ## The walk -/

theorem Span.indices_sized (start length : Nat) :
    (sized start length).indices = List.range' start length := by
  unfold sized indices
  split
  · rename_i none
    rw [none]
    rfl
  · rfl

namespace Arena

/-- The cells of trees that stand side by side, one after the other. -/
theorem filterMap_laid {β : Type} {cells : List (Cell α)} {trees : List (Tree α)} {start : Nat}
    {read : Cell α → β} {value : Tree α → β}
    (each : ∀ k (inside : k < trees.length),
      cells[start + k]?.map read = some (value trees[k])) :
    (List.range' start trees.length).filterMap (fun i => cells[i]?.map read) =
      trees.map value := by
  induction trees generalizing start with
  | nil => rfl
  | cons t trees ih =>
      have first := each 0 (Nat.zero_lt_succ _)
      rw [Nat.add_zero] at first
      have others := @ih (start + 1) fun k inside => by
        rw [Nat.add_right_comm]
        exact each (k + 1) (Nat.succ_lt_succ inside)
      rw [List.length_cons, List.range'_succ, List.filterMap_cons, first, others]
      rfl

/-- **The walk over a span finds the least cost of the trees that stand there.** Its fuel must last
for the cells from there to the end of the array. -/
theorem cheapest_eq {a : Arena α} (fuel : Nat) {trees : List (Tree α)} {start : Nat}
    (laid : ∀ k (inside : k < trees.length), Laid a.nodes.toList trees[k] (start + k))
    (enough : a.size < fuel + start) :
    a.cheapest cost fuel (Span.sized start trees.length) = Tree.leastCost cost trees := by
  induction fuel generalizing trees start with
  | zero =>
      cases trees with
      | nil => rw [Tree.leastCost_nil, cheapest]
      | cons t trees =>
          have inside : start < a.size := (laid 0 (Nat.zero_lt_succ _)).lt_length
          omega
  | succ fuel ih =>
      have each : ∀ k (inside : k < trees.length),
          a.nodes.toList[start + k]?.map (fun c => cost c.label + a.cheapest cost fuel c.children) =
            some (cost trees[k].label + Tree.leastCost cost trees[k].children) := by
        intro k inside
        have stands := laid k inside
        generalize trees[k] = t at stands
        cases stands with
        | node here behind below =>
            rw [here, Option.map_some, Tree.label, Tree.children]
            rw [ih below (by omega)]
      rw [cheapest, Span.indices_sized, Tree.leastCost_eq_min, ← filterMap_laid each]
      simp only [Array.getElem?_toList]

theorem cheapestWay_ofForest (trees : List (Tree α)) :
    (ofForest trees).cheapestWay cost = Tree.leastCost cost trees := by
  have laid : ∀ k (inside : k < trees.length),
      Laid (ofForest trees).nodes.toList trees[k] (0 + k) := by
    intro k inside
    rw [Nat.zero_add]
    exact laid_ofForest trees k inside
  exact cheapest_eq _ laid (by omega)

end Arena

end MediaSniff
