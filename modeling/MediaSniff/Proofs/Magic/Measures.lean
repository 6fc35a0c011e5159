/-
# MediaSniff.Proofs.Magic.Measures — the measures of a content rule, read off the written tests

Content rules are ordered by two numbers, and a third says how much of a file is read. All
three are taken from the cells of the arena: how many there are, the least cost of a walk
down their spans, and the largest extent in one pass over all of them.

`Measured` says what they are in terms of the tests as they are written (`MatchRule.all`,
`Chain`): how many tests there are on all levels, the least length of the values on a way
down, and the furthest place at which a value can end. A written test has a value only once
its texts are read, so `valueLength` and `lastPosition` read them. Every compiled test has
such a reading, and no value begins behind `greatestOffset`.

A mask blanks out bytes of a pattern but leaves it as long as the value, which is why the
length of the written value serves on both sides.
-/
import MediaSniff.Magic.Table
import MediaSniff.Proofs.Arena.Cost
import MediaSniff.Proofs.Arena.Labels
import MediaSniff.Proofs.Magic.Reach
import Mathlib.Algebra.GroupWithZero.Nat

set_option autoImplicit false

namespace MediaSniff

/-! ## The written tests -/

namespace Descriptor

mutual

/-- All tests below a byte test, a level before what is below it. -/
def MatchRule.allBelow : MatchRule → List MatchRule
  | ⟨_, _, _, _, children⟩ => children ++ MatchRule.allBelowEach children

/-- All tests below each of several byte tests. -/
def MatchRule.allBelowEach : List MatchRule → List MatchRule
  | [] => []
  | rule :: rules => MatchRule.allBelow rule ++ MatchRule.allBelowEach rules

end

/-- Several byte tests and all that is below them. -/
def MatchRule.all (rules : List MatchRule) : List MatchRule :=
  rules ++ MatchRule.allBelowEach rules

end Descriptor

namespace Magic

open Descriptor (MatchRule)

/-- How many bytes the value of a test has. -/
def valueLength (rule : MatchRule) : Nat :=
  ((ValueKind.ofName? rule.kind).bind fun kind => (kind.parseValue rule.value).toOption).elim 0
    List.length

/-- The last position at which the value of a test is looked for. -/
def lastPosition (rule : MatchRule) : Nat :=
  (parseOffset rule.offset).toOption.elim 0 fun (start, window) => start + window

/-- The measures of a signature are those of the tests that it is compiled from. -/
structure Measured (s : Signature) (rules : List MatchRule) : Prop where
  /-- All tests are counted. -/
  count : s.nodeCount = (MatchRule.all rules).length
  /-- Without tests there is nothing to compare. -/
  empty : rules = [] → s.leastPatternLength = 0
  /-- Some way down has values of this length together, and none has shorter ones. -/
  least : rules ≠ [] → IsLeast
    {n | ∃ chain, Chain rules chain ∧ (chain.map valueLength).sum = n} s.leastPatternLength
  /-- No value ends behind the extent, and one can end there. -/
  extent : s.extent =
    ((MatchRule.all rules).map fun rule => lastPosition rule + valueLength rule).max?.getD 0
  /-- The texts of each test are read, and its last position is in the range. -/
  reading : ∀ rule ∈ MatchRule.all rules, ∃ r : Reading rule,
    valueLength rule = r.value.length ∧ lastPosition rule = r.start + r.window ∧
      r.start + r.window ≤ 2 ^ 31 - 1

/-! ## One test -/

namespace Reading

variable {rule : MatchRule}

theorem valueLength_eq (r : Reading rule) : valueLength rule = r.value.length := by
  rw [valueLength, r.kind_eq, Option.bind_some, r.value_eq]
  rfl

theorem lastPosition_eq (r : Reading rule) : lastPosition rule = r.start + r.window := by
  rw [lastPosition, r.offset_eq]
  rfl

end Reading

theorem position?_le {cs : List Char} {n : Nat} (read : position? cs = some n) :
    n ≤ greatestOffset := by
  rw [position?, Option.filter_eq_some_iff] at read
  exact of_decide_eq_true read.2

theorem parseOffset_le {text : String} {start window : Nat}
    (read : parseOffset text = .ok (start, window)) : start + window ≤ greatestOffset := by
  rw [parseOffset, Outcome.elim_eq_ok, offset?] at read
  cases behind : text.toList.dropWhile (· ≠ ':') with
  | nil =>
      simp only [behind, Option.bind_eq_bind, Option.bind_eq_some_iff, Option.some.injEq,
        Prod.mk.injEq] at read
      obtain ⟨first, known, rfl, rfl⟩ := read
      exact position?_le known
  | cons colon last =>
      simp only [behind, Option.bind_eq_bind, Option.bind_eq_some_iff] at read
      obtain ⟨first, -, stop, known, read⟩ := read
      have inRange := position?_le known
      split at read
      · cases read
      · cases read
        omega

/-- A compiled test and the written one have the same measures. -/
theorem compileNode_measures {rule : MatchRule} {n : Node} (compiled : compileNode rule = .ok n) :
    n.pattern.length = valueLength rule ∧ n.extent = lastPosition rule + valueLength rule := by
  obtain ⟨r, -, covered, rfl⟩ := compileNode_eq_ok compiled
  have long : r.node.pattern.length = valueLength rule := by
    rw [r.valueLength_eq]
    exact r.length_pattern covered
  exact ⟨long, by rw [Node.extent, long, r.lastPosition_eq]; rfl⟩

/-! ## All tests -/

theorem CompiledEach.level {rules : List MatchRule} {trees : List (Tree Node)}
    (each : CompiledEach rules trees) :
    List.Forall₂ (fun rule n => compileNode rule = .ok n) rules (trees.map Tree.label) := by
  rw [List.forall₂_map_right_iff]
  refine each.imp fun rule t compiled => ?_
  cases compiled with
  | node label _ _ => exact label

theorem Compiled.children {rule : MatchRule} {t : Tree Node} (compiled : Compiled rule t) :
    CompiledEach rule.children t.children := by
  cases compiled with
  | node _ long below =>
      refine List.forall₂_iff_get.2 ⟨long.symm, fun k inRules inTrees => below k inTrees⟩

mutual

theorem forall₂_allBelow : ∀ (rule : MatchRule) (trees : List (Tree Node)),
    CompiledEach rule.children trees →
      List.Forall₂ (fun rule n => compileNode rule = .ok n) rule.allBelow (Tree.labels trees)
  | ⟨_, _, _, _, children⟩, trees, each =>
      List.rel_append each.level (forall₂_allBelowEach children trees each)

theorem forall₂_allBelowEach : ∀ (rules : List MatchRule) (trees : List (Tree Node)),
    CompiledEach rules trees →
      List.Forall₂ (fun rule n => compileNode rule = .ok n) (MatchRule.allBelowEach rules)
        (Tree.labelsBelowEach trees)
  | [], _, each => by
      cases each
      exact .nil
  | rule :: rules, _, each => by
      cases each with
      | @cons _ t _ trees here later =>
          have below := forall₂_allBelow rule t.children here.children
          have others := forall₂_allBelowEach rules trees later
          cases t with
          | node label children =>
              exact List.rel_append below others

end

/-- The labels that compiling leaves are the compiled tests, in their order. -/
theorem CompiledEach.forall₂_all {rules : List MatchRule} {trees : List (Tree Node)}
    (each : CompiledEach rules trees) :
    List.Forall₂ (fun rule n => compileNode rule = .ok n) (MatchRule.all rules)
      (Tree.labels trees) :=
  List.rel_append each.level (forall₂_allBelowEach rules trees each)

/-! ## Ways down -/

/-- **A way down a compiled tree costs what the values on a way down the test cost.** -/
theorem way_iff_chain {rule : MatchRule} {t : Tree Node} (compiled : Compiled rule t) (n : Nat) :
    t.Way (fun node => node.pattern.length) n ↔
      ∃ chain, Chain [rule] chain ∧ (chain.map valueLength).sum = n := by
  induction compiled generalizing n with
  | @node rule node trees label long below ih =>
      have lower : ∀ m, (∃ t ∈ trees, t.Way (fun node => node.pattern.length) m) ↔
          ∃ chain, Chain rule.children chain ∧ (chain.map valueLength).sum = m := fun m => by
        rw [exists_chain_iff]
        exact exists_tree_iff long fun k inTrees => ih k inTrees m
      have here := (compileNode_measures label).1
      rw [exists_chain_singleton, List.map_singleton, List.sum_singleton]
      constructor
      · intro way
        cases way with
        | leaf => exact Or.inl ⟨List.eq_nil_of_length_eq_zero long.symm, here.symm⟩
        | @step _ _ t m mem further =>
            obtain ⟨chain, down, total⟩ := (lower m).1 ⟨t, mem, further⟩
            exact Or.inr ⟨chain, down, by rw [List.map_cons, List.sum_cons, total, here]⟩
      · rintro (⟨last, rfl⟩ | ⟨chain, down, rfl⟩)
        · rw [last, List.length_nil] at long
          rw [List.eq_nil_of_length_eq_zero long, ← here]
          exact .leaf
        · obtain ⟨t, mem, further⟩ := (lower _).2 ⟨chain, down, rfl⟩
          rw [List.map_cons, List.sum_cons, ← here]
          exact .step mem further

theorem exists_chain {rules : List MatchRule} {trees : List (Tree Node)}
    (each : CompiledEach rules trees) (n : Nat) :
    (∃ t ∈ trees, t.Way (fun node => node.pattern.length) n) ↔
      ∃ chain, Chain rules chain ∧ (chain.map valueLength).sum = n := by
  rw [exists_chain_iff]
  exact exists_tree_iff each.length_eq.symm fun k inTrees =>
    way_iff_chain (each.get (each.length_eq ▸ inTrees) inTrees) n

/-! ## Signatures and tables -/

theorem map_label_extent {rules : List MatchRule} {trees : List (Tree Node)}
    (each : CompiledEach rules trees) :
    (Tree.labels trees).map Node.extent =
      (MatchRule.all rules).map fun rule => lastPosition rule + valueLength rule := by
  rw [← List.forall₂_eq_eq_eq, List.forall₂_map_left_iff, List.forall₂_map_right_iff]
  exact each.forall₂_all.flip.imp fun node rule compiled => (compileNode_measures compiled).2

/-- **The measures of a compiled signature are those of its tests.** -/
theorem Signature.measured {owner : TypeId} {priority : Option Nat} {rules : List MatchRule}
    {s : Signature} (compiled : Signature.compile owner priority rules = .ok s) :
    Measured s rules := by
  obtain ⟨trees, done, arena⟩ := compile_arena compiled
  have each := compileForest_compiled done
  have shortest : s.leastPatternLength =
      Tree.leastCost (fun node => node.pattern.length) trees := by
    rw [leastPatternLength, arena, Arena.cheapestWay_ofForest]
  constructor
  case count =>
    rw [nodeCount, arena, Arena.size_ofForest, each.forall₂_all.length_eq]
  case empty =>
    rintro rfl
    cases each
    rw [shortest, Tree.leastCost_nil]
  case least =>
    intro some
    cases each with
    | nil => exact absurd rfl some
    | @cons rule t rules trees first later =>
        rw [shortest]
        constructor
        · exact (exists_chain (.cons first later) _).1 (Tree.exists_cheapest List.mem_cons_self)
        · rintro n chain
          obtain ⟨t', mem, way⟩ := (exists_chain (.cons first later) n).2 chain
          exact Tree.leastCost_le mem way
  case extent =>
    rw [extent, ← Array.foldl_toList, foldl_max_eq fun c : Cell Node => c.label.extent, arena,
      ← map_label_extent each, ← Arena.map_label_nodes, List.map_map]
    rfl
  case reading =>
    intro rule mem
    have labels := each.forall₂_all
    obtain ⟨k, inside, rfl⟩ := List.mem_iff_getElem.1 mem
    have label := labels.get inside (labels.length_eq ▸ inside)
    obtain ⟨r, -, -, -⟩ := compileNode_eq_ok label
    exact ⟨r, r.valueLength_eq, r.lastPosition_eq, parseOffset_le r.offset_eq⟩

theorem Table.longestExtent_ofList (signatures : List Signature) (sentinels : Sentinels) :
    (Table.ofList signatures sentinels).longestExtent =
      (signatures.map Signature.extent).max?.getD 0 := by
  have sorted : (signatures.mergeSort triedBefore).Perm signatures := List.mergeSort_perm _ _
  have commutes : ∀ s ∈ signatures.mergeSort triedBefore,
      ∀ s' ∈ signatures.mergeSort triedBefore, ∀ most : Nat,
        max (max most s.extent) s'.extent = max (max most s'.extent) s.extent :=
    fun s _ s' _ most => max_right_comm most s.extent s'.extent
  rw [← foldl_max_eq]
  exact sorted.foldl_eq' commutes 0

/-- **What rules are ordered by, and how much of a file is read, is told by the written
tests.** The measures of each rule that compiles are those of its tests, and the reach of a
table is the largest extent of its rules. -/
theorem measured_of_compile :
    (∀ (owner : TypeId) (priority : Option Nat) (rules : List MatchRule) (s : Signature),
      Signature.compile owner priority rules = .ok s → Measured s rules) ∧
    ∀ (signatures : List Signature) (sentinels : Sentinels),
      (Table.ofList signatures sentinels).longestExtent =
        (signatures.map Signature.extent).max?.getD 0 :=
  ⟨fun _ _ _ _ compiled => Signature.measured compiled, Table.longestExtent_ofList⟩

/-- Of two ways down, with values of three and of two bytes together, the second is least. -/
theorem measured_branchingRules :
    ∃ s, Signature.compile ⟨3⟩ none branchingRules = .ok s ∧ Measured s branchingRules ∧
      s.nodeCount = 3 ∧ s.leastPatternLength = 2 ∧ s.extent = 5 ∧
      (Table.ofList [s] ⟨⟨0⟩, ⟨1⟩, ⟨2⟩, ⟨4⟩, ⟨5⟩⟩).longestExtent = 5 := by
  have run : ∃ s, Signature.compile ⟨3⟩ none branchingRules = .ok s ∧
      s.nodeCount = 3 ∧ s.leastPatternLength = 2 ∧ s.extent = 5 := by
    decide +kernel
  obtain ⟨s, compiled, count, least, extent⟩ := run
  refine ⟨s, compiled, measured_of_compile.1 _ _ _ s compiled, count, least, extent, ?_⟩
  rw [measured_of_compile.2, List.map_singleton, extent]
  rfl

end Magic

end MediaSniff
