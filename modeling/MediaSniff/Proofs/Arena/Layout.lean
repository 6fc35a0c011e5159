/-
# MediaSniff.Proofs.Arena.Layout — a forest laid out flat is still the forest

`Laid cells t i` says that tree `t` stands at cell `i`: its label is there, and its
children stand side by side from the start of the cell's span on, behind the cell. Every
tree of a forest that is laid out stands at its root (`laid_ofForest`). The layout is a
mutual recursion that puts siblings down before it knows what is below them; the block of
a tree is handed on with the place where it goes, and the invariant of `laid_siblings` is
that both runs of cells are found at their places.

The walks follow from `Laid` by induction on the tree. Cells only point behind themselves,
so a walk that has as much fuel as there are cells behind it never runs out, and its
answer is that of the tree, whether one way down is enough (`wayDown_iff`,
`someWay_ofForest`) or all that is below is needed (`allBelow_iff`, `someTree_ofForest`).
No walk leaves the array (`reached_lt_size`).
-/
import MediaSniff.Arena
import Mathlib.Data.List.Basic

set_option autoImplicit false

namespace MediaSniff

/-- Some way down the tree, from the root to a leaf, passes only labels with a property. -/
inductive Tree.Passes {α : Type} (P : α → Prop) : Tree α → Prop
  | leaf {label : α} (holds : P label) : Passes P (.node label [])
  | step {label : α} {children : List (Tree α)} {t : Tree α} (holds : P label)
      (mem : t ∈ children) (below : Passes P t) : Passes P (.node label children)

/-- All labels of the tree have a property. -/
inductive Tree.Every {α : Type} (P : α → Prop) : Tree α → Prop
  | node {label : α} {children : List (Tree α)} (holds : P label)
      (below : ∀ t ∈ children, Every P t) : Every P (.node label children)

theorem Tree.every_node {α : Type} {P : α → Prop} {label : α} {children : List (Tree α)} :
    Every P (.node label children) ↔ P label ∧ ∀ t ∈ children, Every P t := by
  constructor
  · rintro (⟨holds, below⟩)
    exact ⟨holds, below⟩
  · rintro ⟨holds, below⟩
    exact .node holds below

namespace Span

@[simp] theorem isEmpty_sized (start length : Nat) :
    (sized start length).isEmpty = true ↔ length = 0 := by
  unfold sized isEmpty
  split
  · rename_i childless
    simp [childless, empty]
  · simp

@[simp] theorem mem_indices_sized {start length j : Nat} :
    j ∈ (sized start length).indices ↔ ∃ k, k < length ∧ start + k = j := by
  unfold sized indices
  split
  · rename_i childless
    simp [childless, empty]
  · simp only [List.mem_range'_1]
    constructor
    · rintro ⟨low, high⟩
      exact ⟨j - start, by omega, by omega⟩
    · rintro ⟨k, inside, rfl⟩
      omega

end Span

namespace Arena

variable {α : Type}

/-! ## Where trees stand -/

/-- Tree `t` stands at cell `i`. -/
inductive Laid (cells : List (Cell α)) : Tree α → Nat → Prop
  | node {label : α} {children : List (Tree α)} {i start : Nat}
      (here : cells[i]? = some ⟨label, Span.sized start children.length⟩)
      (behind : i < start)
      (below : ∀ k (inside : k < children.length), Laid cells children[k] (start + k)) :
      Laid cells (.node label children) i

theorem Laid.exists_cell {cells : List (Cell α)} {t : Tree α} {i : Nat} (laid : Laid cells t i) :
    ∃ c ∈ cells, c.label = t.label := by
  cases laid with
  | node here _ _ => exact ⟨_, List.mem_of_getElem? here, rfl⟩

theorem Laid.lt_length {cells : List (Cell α)} {t : Tree α} {i : Nat} (laid : Laid cells t i) :
    i < cells.length := by
  cases laid with
  | node here _ _ => exact (List.getElem?_eq_some_iff.1 here).1

@[simp] theorem length_siblings (trees : List (Tree α)) (next : Nat) :
    (siblings trees next).1.length = trees.length := by
  induction trees generalizing next with
  | nil => rfl
  | cons t trees ih =>
      cases t with
      | node label children => simp [siblings, ih]

/-- A run of cells found at a place: its first cell is there, and the others behind it. -/
theorem prefix_drop_cons {cells run : List (Cell α)} {c : Cell α} {i : Nat}
    (found : c :: run <+: cells.drop i) :
    cells[i]? = some c ∧ run <+: cells.drop (i + 1) := by
  obtain ⟨rest, whole⟩ := found
  have first : cells[i]? = some c := by
    rw [← List.head?_drop, ← whole]
    rfl
  refine ⟨first, rest, ?_⟩
  rw [← List.tail_drop, ← whole]
  rfl

/-- A run of cells found at a place falls into two that are found side by side. -/
theorem prefix_drop_append {cells run run' : List (Cell α)} {i : Nat}
    (found : run ++ run' <+: cells.drop i) :
    run <+: cells.drop i ∧ run' <+: cells.drop (i + run.length) := by
  obtain ⟨rest, whole⟩ := found
  refine ⟨⟨run' ++ rest, by rw [← whole, List.append_assoc]⟩, rest, ?_⟩
  rw [← List.drop_drop, ← whole, List.append_assoc, List.drop_left]

mutual

/-- If the block below a tree is found at its place, its children stand there. -/
theorem laid_cellsBelow (cells : List (Cell α)) : ∀ (t : Tree α) (next : Nat),
    cellsBelow t next <+: cells.drop next →
      ∀ k (inside : k < t.children.length), Laid cells t.children[k] (next + k)
  | .node label children, next, found => by
      rw [cellsBelow] at found
      obtain ⟨level, below⟩ := prefix_drop_append found
      rw [length_siblings] at below
      exact laid_siblings cells children next (next + children.length) (Nat.le_refl _) level below

/-- If the level of siblings is found at one place, and what is below them behind it at
another, each of them stands in its cell. -/
theorem laid_siblings (cells : List (Cell α)) : ∀ (trees : List (Tree α)) (base next : Nat),
    base + trees.length ≤ next → (siblings trees next).1 <+: cells.drop base →
      (siblings trees next).2 <+: cells.drop next →
        ∀ k (inside : k < trees.length), Laid cells trees[k] (base + k)
  | [], base, next, _, _, _ => fun k inside => absurd inside (Nat.not_lt_zero k)
  | .node label children :: trees, base, next, room, level, below => by
      rw [siblings] at level below
      obtain ⟨here, level⟩ := prefix_drop_cons level
      obtain ⟨block, below⟩ := prefix_drop_append below
      rw [List.length_cons] at room
      intro k inside
      cases k with
      | zero =>
          exact .node here (by omega) (laid_cellsBelow cells (.node label children) next block)
      | succ k =>
          have later := laid_siblings cells trees (base + 1) _ (by omega) level below k
            (Nat.lt_of_succ_lt_succ inside)
          rwa [Nat.add_assoc, Nat.add_comm 1 k] at later

end

/-- **Every tree of a forest stands at its root.** -/
theorem laid_ofForest (trees : List (Tree α)) (k : Nat) (inside : k < trees.length) :
    Laid (ofForest trees).nodes.toList trees[k] k := by
  have level : (siblings trees trees.length).1 <+: (ofForest trees).nodes.toList.drop 0 :=
    List.prefix_append _ _
  have below : (siblings trees trees.length).2 <+:
      (ofForest trees).nodes.toList.drop trees.length := by
    have split := prefix_drop_append (i := 0) (List.prefix_refl (ofForest trees).nodes.toList)
    simpa using split.2
  simpa using laid_siblings _ trees 0 trees.length (by omega) level below k inside

/-! ## Walks -/

theorem wayDown_congr {a : Arena α} {holds holds' : α → Bool}
    (same : ∀ c ∈ a.nodes, holds c.label = holds' c.label) (fuel i : Nat) :
    a.wayDown holds fuel i = a.wayDown holds' fuel i := by
  induction fuel generalizing i with
  | zero => rfl
  | succ fuel ih =>
      rw [wayDown, wayDown]
      cases here : a.nodes[i]? with
      | none => rfl
      | some c =>
          simp only [same c (Array.mem_of_getElem? here), funext ih]

/-- Walks look at the labels of cells only. -/
theorem someWay_congr {a : Arena α} {holds holds' : α → Bool}
    (same : ∀ c ∈ a.nodes, holds c.label = holds' c.label) :
    a.someWay holds = a.someWay holds' := by
  rw [someWay, someWay, funext (wayDown_congr same a.size)]

theorem allBelow_mono {a : Arena α} {holds holds' : α → Bool}
    (weaker : ∀ label, holds label = true → holds' label = true) (fuel i : Nat)
    (held : a.allBelow holds fuel i = true) : a.allBelow holds' fuel i = true := by
  induction fuel generalizing i with
  | zero => cases held
  | succ fuel ih =>
      rw [allBelow] at held ⊢
      cases here : a.nodes[i]? with
      | none =>
          rw [here] at held
          cases held
      | some c =>
          simp only [here, Bool.and_eq_true, List.all_eq_true] at held ⊢
          exact ⟨weaker c.label held.1, fun j mem => ih j (held.2 j mem)⟩

/-- Whatever the array looks like, an answer that asks for less is not lost. -/
theorem someTree_mono {a : Arena α} {holds holds' : α → Bool}
    (weaker : ∀ label, holds label = true → holds' label = true)
    (held : a.someTree holds = true) : a.someTree holds' = true := by
  rw [someTree, List.any_eq_true] at held ⊢
  obtain ⟨i, mem, down⟩ := held
  exact ⟨i, mem, allBelow_mono weaker a.size i down⟩

/-- **A walk down from a cell answers for the tree that stands there.** Its fuel must
last for the cells from there to the end of the array. -/
theorem wayDown_iff {a : Arena α} {holds : α → Bool} {t : Tree α} {i : Nat}
    (laid : Laid a.nodes.toList t i) :
    ∀ fuel, a.size ≤ fuel + i →
      (a.wayDown holds fuel i = true ↔ t.Passes fun label => holds label = true) := by
  induction laid with
  | @node label children i start here behind below ih =>
      intro fuel enough
      have inside : i < a.size := by simpa [size] using (List.getElem?_eq_some_iff.1 here).1
      rw [Array.getElem?_toList] at here
      cases fuel with
      | zero => omega
      | succ fuel =>
          -- Cells point behind themselves: one unit of fuel is enough for the step.
          have child : ∀ k (h : k < children.length),
              (a.wayDown holds fuel (start + k) = true ↔
                children[k].Passes fun label => holds label = true) :=
            fun k h => ih k h fuel (by omega)
          simp only [wayDown, here, Bool.and_eq_true, Bool.or_eq_true, Span.isEmpty_sized,
            List.any_eq_true, Span.mem_indices_sized]
          constructor
          · rintro ⟨held, childless | ⟨_, ⟨k, h, rfl⟩, down⟩⟩
            · rw [List.eq_nil_of_length_eq_zero childless]
              exact .leaf held
            · exact .step held (List.getElem_mem h) ((child k h).1 down)
          · intro passes
            cases passes with
            | leaf held => exact ⟨held, Or.inl rfl⟩
            | step held mem down =>
                obtain ⟨k, h, rfl⟩ := List.mem_iff_getElem.1 mem
                exact ⟨held, Or.inr ⟨start + k, ⟨k, h, rfl⟩, (child k h).2 down⟩⟩

/-- **A walk through all cells below one answers for the tree that stands there.** Its fuel
must last for the cells from there to the end of the array. -/
theorem allBelow_iff {a : Arena α} {holds : α → Bool} {t : Tree α} {i : Nat}
    (laid : Laid a.nodes.toList t i) :
    ∀ fuel, a.size ≤ fuel + i →
      (a.allBelow holds fuel i = true ↔ t.Every fun label => holds label = true) := by
  induction laid with
  | @node label children i start here behind below ih =>
      intro fuel enough
      have inside : i < a.size := by simpa [size] using (List.getElem?_eq_some_iff.1 here).1
      rw [Array.getElem?_toList] at here
      cases fuel with
      | zero => omega
      | succ fuel =>
          have child : ∀ k (h : k < children.length),
              (a.allBelow holds fuel (start + k) = true ↔
                children[k].Every fun label => holds label = true) :=
            fun k h => ih k h fuel (by omega)
          simp only [allBelow, here, Bool.and_eq_true, List.all_eq_true, Span.mem_indices_sized,
            Tree.every_node]
          refine and_congr_right fun _ => ⟨fun all t mem => ?_, fun all j mem => ?_⟩
          · obtain ⟨k, h, rfl⟩ := List.mem_iff_getElem.1 mem
            exact (child k h).1 (all _ ⟨k, h, rfl⟩)
          · obtain ⟨k, h, rfl⟩ := mem
            exact (child k h).2 (all _ (List.getElem_mem h))

/-- What holds of some root of a forest holds of some tree. -/
theorem any_roots_ofForest {trees : List (Tree α)} {walk : Nat → Bool} {P : Tree α → Prop}
    (root : ∀ k (inside : k < trees.length), walk k = true ↔ P trees[k]) :
    (ofForest trees).roots.indices.any walk = true ↔ ∃ t ∈ trees, P t := by
  have roots : (ofForest trees).roots = Span.sized 0 trees.length := rfl
  simp only [roots, List.any_eq_true, Span.mem_indices_sized]
  constructor
  · rintro ⟨_, ⟨k, inside, rfl⟩, down⟩
    rw [Nat.zero_add] at down
    exact ⟨trees[k], List.getElem_mem inside, (root k inside).1 down⟩
  · rintro ⟨t, mem, passes⟩
    obtain ⟨k, inside, rfl⟩ := List.mem_iff_getElem.1 mem
    exact ⟨k, ⟨k, inside, Nat.zero_add k⟩, (root k inside).2 passes⟩

/-- **A forest laid out flat answers for its trees.** -/
theorem someWay_ofForest (trees : List (Tree α)) (holds : α → Bool) :
    (ofForest trees).someWay holds = true ↔
      ∃ t ∈ trees, t.Passes fun label => holds label = true :=
  any_roots_ofForest fun k inside => wayDown_iff (laid_ofForest trees k inside) _ (by omega)

theorem someTree_ofForest (trees : List (Tree α)) (holds : α → Bool) :
    (ofForest trees).someTree holds = true ↔
      ∃ t ∈ trees, t.Every fun label => holds label = true :=
  any_roots_ofForest fun k inside => allBelow_iff (laid_ofForest trees k inside) _ (by omega)

/-- The cells that a walk can come to. -/
inductive Reached (a : Arena α) : Nat → Prop
  | root {i : Nat} (mem : i ∈ a.roots.indices) : Reached a i
  | child {i j : Nat} {c : Cell α} (parent : Reached a i) (here : a.nodes[i]? = some c)
      (mem : j ∈ c.children.indices) : Reached a j

theorem laid_of_reached {trees : List (Tree α)} {i : Nat} (reached : (ofForest trees).Reached i) :
    ∃ t, Laid (ofForest trees).nodes.toList t i := by
  induction reached with
  | root mem =>
      have roots : (ofForest trees).roots = Span.sized 0 trees.length := rfl
      rw [roots, Span.mem_indices_sized] at mem
      obtain ⟨k, inside, rfl⟩ := mem
      rw [Nat.zero_add]
      exact ⟨trees[k], laid_ofForest trees k inside⟩
  | child _ here mem ih =>
      obtain ⟨t, laid⟩ := ih
      cases laid with
      | node found behind below =>
          rw [Array.getElem?_toList, here, Option.some.injEq] at found
          subst found
          obtain ⟨k, inside, rfl⟩ := Span.mem_indices_sized.1 mem
          exact ⟨_, below k inside⟩

/-- **No walk leaves the array.** -/
theorem reached_lt_size {trees : List (Tree α)} {i : Nat} (reached : (ofForest trees).Reached i) :
    i < (ofForest trees).size := by
  obtain ⟨t, laid⟩ := laid_of_reached reached
  simpa [size] using laid.lt_length

end Arena

end MediaSniff
