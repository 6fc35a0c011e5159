/-
# MediaSniff.Proofs.Magic.Chain — a content rule matches along a chain of tests

A content rule is written as a forest of byte tests. `Chain` is a way down that forest as
it is written, from one of its first tests to a test without any below it. A compiled rule
accepts a document exactly if the document meets every test of some chain
(`accepts_iff_chain`).

Compiling goes through a tree of compiled tests, which `Compiled` ties to the written
test: same shape, each label compiled from its own texts. From there on the arena answers
for the trees. The same theorem says that the search stays inside: every cell that it can
come to is a cell of the arena, and at every position that it tries there is room for the
whole pattern in front of the end of the document.
-/
import MediaSniff.Magic.Signature
import MediaSniff.Proofs.Arena.Layout
import MediaSniff.Proofs.Magic.Node

set_option autoImplicit false

namespace MediaSniff.Magic

open Descriptor (MatchRule)

/-! ## Chains of written tests -/

/-- A way down from a level of tests to a test without any below it. -/
inductive Chain : (level chain : List MatchRule) → Prop
  | leaf {level : List MatchRule} {rule : MatchRule} (mem : rule ∈ level)
      (last : rule.children = []) : Chain level [rule]
  | step {level chain : List MatchRule} {rule : MatchRule} (mem : rule ∈ level)
      (below : Chain rule.children chain) : Chain level (rule :: chain)

/-- The document meets every test of some way down. -/
def MeetsChain (level : List MatchRule) (data : Bytes) : Prop :=
  ∃ chain, Chain level chain ∧ ∀ rule ∈ chain, Meets rule data

theorem Chain.mono {level level' chain : List MatchRule} (down : Chain level chain)
    (sub : level ⊆ level') : Chain level' chain := by
  cases down with
  | leaf mem last => exact .leaf (sub mem) last
  | step mem below => exact .step (sub mem) below

/-- A way down starts at one of the tests. -/
theorem exists_chain_iff {level : List MatchRule} {P : List MatchRule → Prop} :
    (∃ chain, Chain level chain ∧ P chain) ↔
      ∃ rule ∈ level, ∃ chain, Chain [rule] chain ∧ P chain := by
  constructor
  · rintro ⟨chain, down, held⟩
    cases down with
    | leaf mem last =>
        exact ⟨_, mem, _, .leaf (List.mem_singleton.2 rfl) last, held⟩
    | step mem below =>
        exact ⟨_, mem, _, .step (List.mem_singleton.2 rfl) below, held⟩
  · rintro ⟨rule, mem, chain, down, held⟩
    refine ⟨chain, down.mono ?_, held⟩
    intro other here
    rwa [List.mem_singleton.1 here]

/-- A way down from a test is that test and, if there are tests below it, a way down from
those. -/
theorem exists_chain_singleton {rule : MatchRule} {P : List MatchRule → Prop} :
    (∃ chain, Chain [rule] chain ∧ P chain) ↔
      (rule.children = [] ∧ P [rule]) ∨ ∃ chain, Chain rule.children chain ∧ P (rule :: chain) := by
  constructor
  · rintro ⟨chain, down, held⟩
    cases down with
    | leaf mem last =>
        obtain rfl := List.mem_singleton.1 mem
        exact Or.inl ⟨last, held⟩
    | step mem below =>
        obtain rfl := List.mem_singleton.1 mem
        exact Or.inr ⟨_, below, held⟩
  · rintro (⟨last, held⟩ | ⟨chain, below, held⟩)
    · exact ⟨[rule], .leaf List.mem_cons_self last, held⟩
    · exact ⟨rule :: chain, .step List.mem_cons_self below, held⟩

theorem meetsChain_iff_exists {level : List MatchRule} {data : Bytes} :
    MeetsChain level data ↔ ∃ rule ∈ level, MeetsChain [rule] data :=
  exists_chain_iff

theorem meetsChain_singleton {rule : MatchRule} {data : Bytes} :
    MeetsChain [rule] data ↔
      Meets rule data ∧ (rule.children = [] ∨ MeetsChain rule.children data) := by
  rw [MeetsChain, exists_chain_singleton]
  simp only [List.forall_mem_cons, List.not_mem_nil, false_imp_iff, implies_true, and_true]
  constructor
  · rintro (⟨last, here⟩ | ⟨chain, below, here, later⟩)
    · exact ⟨here, Or.inl last⟩
    · exact ⟨here, Or.inr ⟨chain, below, later⟩⟩
  · rintro ⟨here, last | ⟨chain, below, later⟩⟩
    · exact Or.inl ⟨last, here⟩
    · exact Or.inr ⟨chain, below, here, later⟩

/-! ## Compiled trees -/

/-- A tree of compiled tests has the shape of a written test, and each of its labels is
compiled from the texts of its own test. -/
inductive Compiled : MatchRule → Tree Node → Prop
  | node {rule : MatchRule} {n : Node} {trees : List (Tree Node)}
      (label : compileNode rule = .ok n) (length : trees.length = rule.children.length)
      (below : ∀ k (inTrees : k < trees.length), Compiled (rule.children[k]) trees[k]) :
      Compiled rule (.node n trees)

/-- A list of trees compiled from a list of tests. -/
def CompiledEach (rules : List MatchRule) (trees : List (Tree Node)) : Prop :=
  List.Forall₂ Compiled rules trees

/-- Labels and what is below them, put together. -/
theorem compiledEach_zipWith {rules : List MatchRule} {nodes : List Node}
    {below : List (List (Tree Node))}
    (labels : List.Forall₂ (fun rule n => compileNode rule = .ok n) rules nodes)
    (trees : List.Forall₂ (fun rule ts => CompiledEach rule.children ts) rules below) :
    CompiledEach rules (List.zipWith .node nodes below) := by
  induction labels generalizing below with
  | nil => exact .nil
  | cons label labels ih =>
      cases trees with
      | cons tree trees =>
          refine .cons (.node label tree.length_eq.symm fun k inTrees => ?_) (ih trees)
          exact tree.get (tree.length_eq ▸ inTrees) inTrees

mutual

theorem compileBelow_compiled : ∀ (rule : MatchRule) (trees : List (Tree Node)),
    compileBelow rule = .ok trees → CompiledEach rule.children trees
  | ⟨_, _, _, _, children⟩, trees, done => by
      rw [compileBelow] at done
      obtain ⟨nodes, labels, done⟩ := Outcome.bind_eq_ok.1 done
      obtain ⟨below, each, done⟩ := Outcome.bind_eq_ok.1 done
      cases done
      exact compiledEach_zipWith (Outcome.mapM_eq_ok.1 labels)
        (compileEachBelow_compiled children below each)

theorem compileEachBelow_compiled : ∀ (rules : List MatchRule) (below : List (List (Tree Node))),
    compileEachBelow rules = .ok below →
      List.Forall₂ (fun rule ts => CompiledEach rule.children ts) rules below
  | [], below, done => by
      cases done
      exact .nil
  | rule :: rules, below, done => by
      rw [compileEachBelow] at done
      obtain ⟨trees, first, done⟩ := Outcome.bind_eq_ok.1 done
      obtain ⟨others, rest, done⟩ := Outcome.bind_eq_ok.1 done
      cases done
      exact .cons (compileBelow_compiled rule trees first)
        (compileEachBelow_compiled rules others rest)

end

theorem compileForest_compiled {rules : List MatchRule} {trees : List (Tree Node)}
    (done : compileForest rules = .ok trees) : CompiledEach rules trees := by
  rw [compileForest] at done
  obtain ⟨nodes, labels, done⟩ := Outcome.bind_eq_ok.1 done
  obtain ⟨below, each, done⟩ := Outcome.bind_eq_ok.1 done
  cases done
  exact compiledEach_zipWith (Outcome.mapM_eq_ok.1 labels)
    (compileEachBelow_compiled rules below each)

/-- Tests that match trees one by one. -/
theorem exists_tree_iff {rules : List MatchRule} {trees : List (Tree Node)}
    {P : Tree Node → Prop} {Q : MatchRule → Prop} (long : trees.length = rules.length)
    (each : ∀ k (inTrees : k < trees.length), P trees[k] ↔ Q rules[k]) :
    (∃ t ∈ trees, P t) ↔ ∃ rule ∈ rules, Q rule := by
  constructor
  · rintro ⟨t, mem, held⟩
    obtain ⟨k, inTrees, rfl⟩ := List.mem_iff_getElem.1 mem
    exact ⟨rules[k], List.getElem_mem _, (each k inTrees).1 held⟩
  · rintro ⟨rule, mem, met⟩
    obtain ⟨k, inRules, rfl⟩ := List.mem_iff_getElem.1 mem
    have inTrees : k < trees.length := long ▸ inRules
    exact ⟨trees[k], List.getElem_mem _, (each k inTrees).2 met⟩

theorem exists_iff_exists {rules : List MatchRule} {trees : List (Tree Node)} {data : Bytes}
    {P : Tree Node → Prop} (long : trees.length = rules.length)
    (each : ∀ k (inTrees : k < trees.length), P trees[k] ↔ MeetsChain [rules[k]] data) :
    (∃ t ∈ trees, P t) ↔ MeetsChain rules data := by
  rw [meetsChain_iff_exists]
  exact exists_tree_iff long each

/-- **A compiled tree passes along a chain of written tests.** -/
theorem passes_iff_meetsChain {rule : MatchRule} {t : Tree Node} (compiled : Compiled rule t)
    (data : Bytes) :
    (t.Passes fun n => n.holds data.toByteArray = true) ↔ MeetsChain [rule] data := by
  induction compiled with
  | @node rule n trees label long below ih =>
      have lower := exists_iff_exists long ih
      rw [meetsChain_singleton, ← holds_iff_meets label, ← lower]
      constructor
      · intro passes
        cases passes with
        | leaf held => exact ⟨held, Or.inl (List.eq_nil_of_length_eq_zero long.symm)⟩
        | step held mem passes => exact ⟨held, Or.inr ⟨_, mem, passes⟩⟩
      · rintro ⟨held, last | ⟨t, mem, passes⟩⟩
        · rw [last, List.length_nil] at long
          rw [List.eq_nil_of_length_eq_zero long]
          exact .leaf held
        · exact .step held mem passes

/-! ## Compiled rules -/

/-- **A content rule compiles** if its priority is in the range and its tests compile. -/
theorem Signature.compile_eq_ok {owner : TypeId} {priority : Option Nat} {rules : List MatchRule}
    {s : Signature} :
    Signature.compile owner priority rules = .ok s ↔
      priority.getD defaultPriority ≤ greatestPriority ∧
        ∃ trees, compileForest rules = .ok trees ∧
          s = ⟨owner, priority.getD defaultPriority, .ofForest trees⟩ := by
  rw [Signature.compile]
  by_cases high : greatestPriority < priority.getD defaultPriority
  · rw [if_pos high]
    exact iff_of_false nofun fun allowed => absurd high (Nat.not_lt.2 allowed.1)
  · rw [if_neg high]
    constructor
    · intro done
      obtain ⟨trees, compiled, done⟩ := Outcome.bind_eq_ok.1 done
      cases done
      exact ⟨Nat.not_lt.1 high, trees, compiled, rfl⟩
    · rintro ⟨-, trees, compiled, rfl⟩
      exact Outcome.bind_eq_ok.2 ⟨trees, compiled, rfl⟩

theorem compile_arena {owner : TypeId} {priority : Option Nat} {rules : List MatchRule}
    {s : Signature} (compiled : Signature.compile owner priority rules = .ok s) :
    ∃ trees, compileForest rules = .ok trees ∧ s.arena = .ofForest trees := by
  obtain ⟨-, trees, done, rfl⟩ := Signature.compile_eq_ok.1 compiled
  exact ⟨trees, done, rfl⟩

/-- **A content rule matches along a chain of tests.** A compiled rule accepts a document
exactly if the document meets every test of some way down from a first test to a test with
none below it. Every cell that the search can come to is there; on it the test is tried at
its positions, and at each of them there is room for the pattern. -/
theorem accepts_iff_chain {owner : TypeId} {priority : Option Nat} {rules : List MatchRule}
    {s : Signature} (compiled : Signature.compile owner priority rules = .ok s) (data : Bytes) :
    (s.accepts data.toByteArray = true ↔
      ∃ chain, Chain rules chain ∧ ∀ rule ∈ chain, Meets rule data) ∧
    ∀ i, s.arena.Reached i → ∃ c, s.arena.nodes[i]? = some c ∧
      c.label.holds data.toByteArray = (c.label.positions data.length).any
        (c.label.fitsAt data.toByteArray c.label.pattern.toByteArray) ∧
      ∀ p ∈ c.label.positions data.length, p + c.label.pattern.length ≤ data.length := by
  obtain ⟨trees, done, arena⟩ := compile_arena compiled
  have each := compileForest_compiled done
  constructor
  · rw [Signature.accepts, arena, Arena.someWay_ofForest]
    refine exists_iff_exists each.length_eq.symm fun k inTrees => ?_
    exact passes_iff_meetsChain (each.get (each.length_eq ▸ inTrees) inTrees) data
  · intro i reached
    rw [arena] at reached ⊢
    have inside : i < (Arena.ofForest trees).nodes.size := Arena.reached_lt_size reached
    refine ⟨_, Array.getElem?_eq_getElem inside, ?_, fun p tried => ?_⟩
    · rw [Node.holds_eq_any, List.size_toByteArray]
    · exact (Node.mem_positions.1 tried).2.2

/-- Two alternatives: a masked text followed by a byte, or a number somewhere near the
beginning. -/
def branchingRules : List MatchRule :=
  [{ offset := "0:2", kind := "string", value := "aB", mask := some "0xffdf"
     children := [{ offset := "4", kind := "byte", value := "0x41" }] },
   { offset := "1:3", kind := "big16", value := "0x0102" }]

theorem branchingRules_met :
    ∃ s, Signature.compile ⟨3⟩ none branchingRules = .ok s ∧
      (∃ chain, Chain branchingRules chain ∧
        ∀ rule ∈ chain, Meets rule [0x01, 0x61, 0x62, 0x03, 0x41]) ∧
      ¬ ∃ chain, Chain branchingRules chain ∧
        ∀ rule ∈ chain, Meets rule [0x01, 0x61, 0x62, 0x03] := by
  have run : ∃ s, Signature.compile ⟨3⟩ none branchingRules = .ok s ∧
      s.accepts [0x01, 0x61, 0x62, 0x03, 0x41].toByteArray = true ∧
      s.accepts [0x01, 0x61, 0x62, 0x03].toByteArray = false := by
    decide +kernel
  obtain ⟨s, compiled, accepts, refuses⟩ := run
  refine ⟨s, compiled, (accepts_iff_chain compiled _).1.1 accepts, fun met => ?_⟩
  have accepted := (accepts_iff_chain compiled _).1.2 met
  rw [refuses] at accepted
  cases accepted

end MediaSniff.Magic
