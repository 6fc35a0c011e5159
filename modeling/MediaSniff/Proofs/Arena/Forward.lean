/-
# MediaSniff.Proofs.Arena.Forward — compiled forests are laid out forward

The cells of a compiled rule point at each other by spans alone, and nothing checks a span
when it is followed. `Arena.IsForest` says that none needs to be: the roots come first, the
children of a cell stand behind it and inside the array, and the spans cut the array into
pieces, so that every cell stands in one span, once.

The layout writes a level of siblings down before it knows what is below them, so the
spans of the level already name cells that are yet to come. Hence the invariant of
`perm_siblings`: the spans of a level and of all that is below it name, once each, exactly
the cells that the layout puts behind the level. That each span stands behind its own cell
is known from where trees stand (`Laid`).

`Arena.WalksEnd` is what the searches make of it. A way down only rises, so it meets no
cell twice, and the fuel of the searches never shows: each satisfies the equation of the
search without fuel, and the relation that the equation goes down is well-founded.
-/
import MediaSniff.Proofs.Arena.Cost
import MediaSniff.Proofs.Layout.Compile
import MediaSniff.Proofs.Magic.Chain
import Mathlib.Data.List.Nodup
import Mathlib.Order.WellFounded

set_option autoImplicit false

namespace MediaSniff

namespace Arena

variable {α : Type}

/-- The span of the roots, and of the children of each cell. -/
def spans (a : Arena α) : List Span :=
  a.roots :: a.nodes.toList.map fun c => c.children

/-- Cell `j` is a child of cell `i`. -/
def Child (a : Arena α) (j i : Nat) : Prop :=
  ∃ c, a.nodes[i]? = some c ∧ j ∈ c.children.indices

/-- The cells are a forest with so many roots, laid out forward. -/
structure IsForest (a : Arena α) (rootCount : Nat) : Prop where
  /-- The roots come first. -/
  roots : a.roots = ⟨0, rootCount⟩
  /-- Children stand behind their parent and inside the array. -/
  behind : ∀ (i : Nat) (c : Cell α), a.nodes[i]? = some c → c.children.isEmpty = false →
    i < c.children.start ∧ c.children.start + c.children.length ≤ a.size
  /-- No two spans share a cell. -/
  apart : a.spans.Pairwise fun s s' => s.indices.Disjoint s'.indices
  /-- Every cell stands in one span, once. -/
  once : (a.spans.flatMap Span.indices).Perm (List.range a.size)

/-- Searches end, and no way down comes to a cell twice. -/
structure WalksEnd (a : Arena α) : Prop where
  /-- The cells on a way down stand one behind the other. -/
  rising : ∀ path : List Nat, path.IsChain (fun i j => a.Child j i) → path.Pairwise (· < ·)
  /-- There is no way down that goes on for ever. -/
  ends : WellFounded a.Child
  wayDown : ∀ (holds : α → Bool) (i : Nat), a.wayDown holds a.size i =
    match a.nodes[i]? with
    | none => false
    | some c => holds c.label &&
        (c.children.isEmpty || c.children.indices.any (a.wayDown holds a.size))
  allBelow : ∀ (holds : α → Bool) (i : Nat), a.allBelow holds a.size i =
    match a.nodes[i]? with
    | none => false
    | some c => holds c.label && c.children.indices.all (a.allBelow holds a.size)
  cheapest : ∀ (cost : α → Nat) (span : Span), a.cheapest cost (a.size + 1) span =
    (span.indices.filterMap fun i => a.nodes[i]?.map fun c =>
      cost c.label + a.cheapest cost (a.size + 1) c.children).min?.getD 0

/-! ## The layout -/

mutual

/-- Together with the children of the tree, the spans in the block below it name the cells
of the block, once each. -/
theorem perm_cellsBelow : ∀ (t : Tree α) (next : Nat),
    (List.range' next t.children.length ++
      (cellsBelow t next).flatMap fun c => c.children.indices).Perm
        (List.range' next (cellsBelow t next).length)
  | .node label children, next => by
      have lower := perm_siblings children (next + children.length)
      rw [cellsBelow, List.flatMap_append, List.length_append, length_siblings,
        ← List.range'_append_1]
      exact lower.append_left _

/-- The spans of a level and of what is below it name the cells below it, once each. -/
theorem perm_siblings : ∀ (trees : List (Tree α)) (next : Nat),
    ((siblings trees next).1.flatMap (fun c => c.children.indices) ++
      (siblings trees next).2.flatMap fun c => c.children.indices).Perm
        (List.range' next (siblings trees next).2.length)
  | [], _ => .refl _
  | .node label children :: trees, next => by
      have block := perm_cellsBelow (.node label children) next
      have others := perm_siblings trees (next + (cellsBelow (.node label children) next).length)
      rw [siblings, List.flatMap_cons, List.flatMap_append, Span.indices_sized,
        List.length_append, ← List.range'_append_1]
      refine .trans ?_ (block.append others)
      rw [Tree.children, List.append_assoc, List.append_assoc]
      refine .append_left _ ?_
      rw [← List.append_assoc, ← List.append_assoc]
      exact List.perm_append_comm.append_right _

end

theorem spans_perm_ofForest (trees : List (Tree α)) :
    ((ofForest trees).spans.flatMap Span.indices).Perm (List.range (ofForest trees).size) := by
  have lower := perm_siblings trees trees.length
  rw [spans, List.flatMap_cons, List.flatMap_map, ofForest, Span.indices_sized, size,
    List.flatMap_append, List.size_toArray, List.length_append, length_siblings,
    List.range_eq_range', ← List.range'_append_1, Nat.zero_add]
  exact lower.append_left _

mutual

/-- Where the block below a tree is found, a tree stands at each of its cells. -/
theorem exists_laid_cellsBelow (cells : List (Cell α)) : ∀ (t : Tree α) (next : Nat),
    cellsBelow t next <+: cells.drop next →
      ∀ k < (cellsBelow t next).length, ∃ t', Laid cells t' (next + k)
  | .node label children, next, found => fun k inside => by
      by_cases level : k < children.length
      · exact ⟨_, laid_cellsBelow cells (.node label children) next found k level⟩
      · rw [cellsBelow] at found inside
        obtain ⟨-, below⟩ := prefix_drop_append found
        rw [length_siblings] at below
        rw [List.length_append, length_siblings] at inside
        obtain ⟨t, laid⟩ := exists_laid_siblings cells children (next + children.length) below
          (k - children.length) (by omega)
        rw [Nat.add_assoc, Nat.add_sub_cancel' (Nat.not_lt.1 level)] at laid
        exact ⟨t, laid⟩

/-- Where all that is below siblings is found, a tree stands at each of its cells. -/
theorem exists_laid_siblings (cells : List (Cell α)) : ∀ (trees : List (Tree α)) (next : Nat),
    (siblings trees next).2 <+: cells.drop next →
      ∀ k < (siblings trees next).2.length, ∃ t, Laid cells t (next + k)
  | [], _, _ => fun k inside => absurd inside (Nat.not_lt_zero k)
  | .node label children :: trees, next, found => fun k inside => by
      rw [siblings] at found inside
      obtain ⟨block, below⟩ := prefix_drop_append found
      rw [List.length_append] at inside
      by_cases first : k < (cellsBelow (.node label children) next).length
      · exact exists_laid_cellsBelow cells (.node label children) next block k first
      · obtain ⟨t, laid⟩ := exists_laid_siblings cells trees _ below
          (k - (cellsBelow (.node label children) next).length) (by omega)
        rw [Nat.add_assoc, Nat.add_sub_cancel' (Nat.not_lt.1 first)] at laid
        exact ⟨t, laid⟩

end

/-- **A tree stands at every cell of a forest that is laid out.** -/
theorem exists_laid_ofForest (trees : List (Tree α)) {i : Nat}
    (inside : i < (ofForest trees).size) : ∃ t, Laid (ofForest trees).nodes.toList t i := by
  by_cases root : i < trees.length
  · exact ⟨_, laid_ofForest trees i root⟩
  · have below : (siblings trees trees.length).2 <+:
        (ofForest trees).nodes.toList.drop trees.length := by
      have split := prefix_drop_append (i := 0) (List.prefix_refl (ofForest trees).nodes.toList)
      simpa using split.2
    rw [ofForest, size, List.size_toArray, List.length_append, length_siblings] at inside
    obtain ⟨t, laid⟩ := exists_laid_siblings _ trees trees.length below (i - trees.length)
      (by omega)
    rw [Nat.add_sub_cancel' (Nat.not_lt.1 root)] at laid
    exact ⟨t, laid⟩

theorem behind_ofForest {trees : List (Tree α)} {i : Nat} {c : Cell α}
    (here : (ofForest trees).nodes[i]? = some c) (parent : c.children.isEmpty = false) :
    i < c.children.start ∧ c.children.start + c.children.length ≤ (ofForest trees).size := by
  have inside : i < (ofForest trees).size := (Array.getElem?_eq_some_iff.1 here).1
  obtain ⟨t, laid⟩ := exists_laid_ofForest trees inside
  cases laid with
  | @node label children _ start found behind below =>
      rw [Array.getElem?_toList, here, Option.some.injEq] at found
      subst found
      have some : children.length ≠ 0 := by
        intro none
        rw [(Span.isEmpty_sized start children.length).2 none] at parent
        cases parent
      -- The last child stands in the array, so the whole span does.
      have last : start + (children.length - 1) < (ofForest trees).size :=
        (below (children.length - 1) (by omega)).lt_length
      rw [Span.sized, if_neg some]
      exact ⟨behind, by simp only; omega⟩

/-- **A forest that is laid out is laid out forward.** -/
theorem isForest_ofForest (trees : List (Tree α)) : (ofForest trees).IsForest trees.length where
  roots := by
    change Span.sized 0 trees.length = ⟨0, trees.length⟩
    cases trees with
    | nil => rfl
    | cons t trees => rfl
  behind _ _ here parent := behind_ofForest here parent
  apart := by
    have distinct := (spans_perm_ofForest trees).nodup_iff.2 List.nodup_range
    exact (List.nodup_flatMap.1 distinct).2
  once := spans_perm_ofForest trees

/-! ## The searches -/

section Searches

variable {a : Arena α} {rootCount : Nat} (forest : a.IsForest rootCount)

include forest

theorem IsForest.child_bounds {i j : Nat} (child : a.Child j i) : i < j ∧ j < a.size := by
  obtain ⟨c, here, mem⟩ := child
  rw [Span.indices, List.mem_range'_1] at mem
  have parent : c.children.isEmpty = false := by
    rw [Span.isEmpty, beq_eq_false_iff_ne]
    omega
  obtain ⟨low, high⟩ := forest.behind i c here parent
  omega

/-- Fuel that lasts from a cell to the end of the array lasts from its children, less one. -/
theorem IsForest.enough_below {i j fuel : Nat} {c : Cell α} (here : a.nodes[i]? = some c)
    (child : j ∈ c.children.indices) (enough : a.size ≤ fuel + 1 + i) : a.size ≤ fuel + j := by
  have bounds := forest.child_bounds ⟨c, here, child⟩
  omega

theorem IsForest.wellFounded_child : WellFounded a.Child := by
  refine Subrelation.wf ?_ (measure fun i => a.size - i).wf
  intro j i child
  obtain ⟨low, high⟩ := forest.child_bounds child
  exact Nat.sub_lt_sub_left (low.trans high) low

theorem IsForest.rising {path : List Nat} (down : path.IsChain fun i j => a.Child j i) :
    path.Pairwise (· < ·) :=
  List.isChain_iff_pairwise.1 (down.imp fun _ _ child => (forest.child_bounds child).1)

/-- Where fuel lasts to the end of the array, one unit more changes nothing. -/
theorem IsForest.wayDown_succ (holds : α → Bool) (fuel i : Nat) (enough : a.size ≤ fuel + i) :
    a.wayDown holds (fuel + 1) i = a.wayDown holds fuel i := by
  induction fuel generalizing i with
  | zero =>
      rw [Nat.zero_add] at enough
      simp only [wayDown, Array.getElem?_eq_none enough]
  | succ fuel ih =>
      rw [wayDown, wayDown]
      cases here : a.nodes[i]? with
      | none => rfl
      | some c =>
          have below : c.children.indices.any (a.wayDown holds (fuel + 1)) =
              c.children.indices.any (a.wayDown holds fuel) := by
            rw [Bool.eq_iff_iff, List.any_eq_true, List.any_eq_true]
            refine exists_congr fun j => and_congr_right fun mem => ?_
            rw [ih j (forest.enough_below here mem enough)]
          simp only [below]

theorem IsForest.allBelow_succ (holds : α → Bool) (fuel i : Nat) (enough : a.size ≤ fuel + i) :
    a.allBelow holds (fuel + 1) i = a.allBelow holds fuel i := by
  induction fuel generalizing i with
  | zero =>
      rw [Nat.zero_add] at enough
      simp only [allBelow, Array.getElem?_eq_none enough]
  | succ fuel ih =>
      rw [allBelow, allBelow]
      cases here : a.nodes[i]? with
      | none => rfl
      | some c =>
          have below : c.children.indices.all (a.allBelow holds (fuel + 1)) =
              c.children.indices.all (a.allBelow holds fuel) := by
            rw [Bool.eq_iff_iff, List.all_eq_true, List.all_eq_true]
            refine forall_congr' fun j => imp_congr_right fun mem => ?_
            rw [ih j (forest.enough_below here mem enough)]
          simp only [below]

theorem IsForest.cheapest_succ (cost : α → Nat) (fuel : Nat) (span : Span)
    (enough : ∀ i ∈ span.indices, a.size ≤ fuel + i) :
    a.cheapest cost (fuel + 1) span = a.cheapest cost fuel span := by
  induction fuel generalizing span with
  | zero =>
      have noWays : (span.indices.filterMap fun i => a.nodes[i]?.map fun c =>
          cost c.label + a.cheapest cost 0 c.children) = [] := by
        refine List.filterMap_eq_nil_iff.2 fun i mem => ?_
        have outside := enough i mem
        rw [Nat.zero_add] at outside
        rw [Array.getElem?_eq_none outside, Option.map_none]
      change (List.filterMap _ _).min?.getD 0 = 0
      rw [noWays]
      rfl
  | succ fuel ih =>
      have ways : (span.indices.filterMap fun i => a.nodes[i]?.map fun c =>
          cost c.label + a.cheapest cost (fuel + 1) c.children) =
            span.indices.filterMap fun i => a.nodes[i]?.map fun c =>
              cost c.label + a.cheapest cost fuel c.children := by
        refine List.filterMap_congr fun i mem => ?_
        cases here : a.nodes[i]? with
        | none => rfl
        | some c =>
            rw [Option.map_some, Option.map_some, ih c.children fun j child =>
              forest.enough_below here child (enough i mem)]
      rw [cheapest, cheapest, ways]

/-- **In a forest that is laid out forward, searches end.** -/
theorem IsForest.walksEnd : a.WalksEnd where
  rising _ down := forest.rising down
  ends := forest.wellFounded_child
  wayDown holds i := (forest.wayDown_succ holds a.size i (Nat.le_add_right _ _)).symm
  allBelow holds i := (forest.allBelow_succ holds a.size i (Nat.le_add_right _ _)).symm
  cheapest cost span := (forest.cheapest_succ cost (a.size + 1) span fun i _ => by omega).symm

end Searches

/-! ## Compiled rules -/

/-- **A compiled rule is laid out forward.** The roots are the tests that stand first in the
rule, the children of a test stand behind it, and every test stands in one span, once. So
no search comes to a test twice on its way, and each of them ends. -/
theorem isForest_compiled :
    (∀ (owner : TypeId) (priority : Option Nat) (rules : List Descriptor.MatchRule)
      (s : Magic.Signature), Magic.Signature.compile owner priority rules = .ok s →
        s.arena.IsForest rules.length ∧ s.arena.WalksEnd) ∧
    ∀ (type : String) (owner : TypeId) (rule : Descriptor.LayoutRule)
      (resolve : String → Option TypeId) (s : Layout.Signature),
      Layout.Signature.compile type owner rule resolve = .ok s →
        s.arena.IsForest rule.tests.length ∧ s.arena.WalksEnd := by
  constructor
  · intro owner priority rules s compiled
    obtain ⟨trees, done, arena⟩ := Magic.compile_arena compiled
    have forest := isForest_ofForest trees
    rw [← (Magic.compileForest_compiled done).length_eq, ← arena] at forest
    exact ⟨forest, forest.walksEnd⟩
  · intro type owner rule resolve s compiled
    obtain ⟨-, trees, done, rfl⟩ := Layout.Signature.compile_eq_ok.1 compiled
    have forest := isForest_ofForest trees
    rw [Layout.length_compileForest done] at forest
    exact ⟨forest, forest.walksEnd⟩

/-- A disc, told by its folder and what is in it or by the keys beside it. -/
def nestedRule : Descriptor.LayoutRule :=
  { tests := [{ path := "BDMV", kind := some "directory"
                children := [{ path := "BDMV/index.bdmv" }, { path := "BDMV/STREAM" }] },
              { path := "AACS", nonEmpty := true }] }

/-- Three byte tests and four directory tests, two of them at the top of each. -/
theorem isForest_branching :
    (∃ s, Magic.Signature.compile ⟨3⟩ none Magic.branchingRules = .ok s ∧
      s.arena.size = 3 ∧ s.arena.IsForest 2 ∧ s.arena.WalksEnd) ∧
    ∃ s, Layout.Signature.compile "x-content/video-bluray" ⟨4⟩ nestedRule (fun _ => none) = .ok s ∧
      s.arena.size = 4 ∧ s.arena.IsForest 2 ∧ s.arena.WalksEnd := by
  have tests : ∃ s, Magic.Signature.compile ⟨3⟩ none Magic.branchingRules = .ok s ∧
      s.arena.size = 3 := by
    decide +kernel
  have layouts : ∃ s, Layout.Signature.compile "x-content/video-bluray" ⟨4⟩ nestedRule
      (fun _ => none) = .ok s ∧ s.arena.size = 4 := by
    decide +kernel
  constructor
  · obtain ⟨s, compiled, size⟩ := tests
    exact ⟨s, compiled, size, isForest_compiled.1 _ _ _ _ compiled⟩
  · obtain ⟨s, compiled, size⟩ := layouts
    exact ⟨s, compiled, size, isForest_compiled.2 _ _ _ _ _ compiled⟩

end Arena

end MediaSniff
