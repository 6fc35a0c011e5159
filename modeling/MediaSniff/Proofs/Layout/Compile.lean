/-
# MediaSniff.Proofs.Layout.Compile — which directory rules compile

A test compiles if its own texts are right and the type that it asks for is known
(`compileNode_eq_ok`). A rule compiles if each of its tests does, at whatever level it
stands: compiling goes through the levels as `allBelow` does, and what it leaves as labels
are the compiled tests (`map_compileNode_forest`). So the names that a rule mentions are the
only thing outside of the rule on which it depends whether it compiles
(`Signature.exists_compile_iff`), and each type that a compiled test asks for is the type of
such a name (`Signature.exists_reference_of_mem`).
-/
import MediaSniff.Layout.Signature
import MediaSniff.Proofs.Arena.Labels
import MediaSniff.Proofs.Outcome

set_option autoImplicit false

namespace MediaSniff

namespace Descriptor

mutual

/-- All tests below a test, a level before what is below it. -/
def LayoutTest.allBelow : LayoutTest → List LayoutTest
  | ⟨_, _, _, _, _, _, children⟩ => children ++ LayoutTest.allBelowEach children

/-- All tests below each of several tests. -/
def LayoutTest.allBelowEach : List LayoutTest → List LayoutTest
  | [] => []
  | test :: tests => LayoutTest.allBelow test ++ LayoutTest.allBelowEach tests

end

/-- All tests of a rule. -/
def LayoutRule.allTests (rule : LayoutRule) : List LayoutTest :=
  rule.tests ++ LayoutTest.allBelowEach rule.tests

/-- The name of the type that a test asks for. The empty text names none. -/
def LayoutTest.reference? (test : LayoutTest) : Option String := test.mimetype.filter (!·.isEmpty)

/-- The names of the types that the tests of a rule ask for. -/
def LayoutRule.references (rule : LayoutRule) : List String :=
  rule.allTests.filterMap (·.reference?)

end Descriptor

namespace Layout

open Descriptor (LayoutTest LayoutRule)

variable {type : String} {resolve : String → Option TypeId}

/-! ## One test -/

/-- The texts of a test are right: it has a path, and its kind is one of those there are. -/
def WellWritten (test : LayoutTest) : Prop :=
  (trimSlashes test.path).isEmpty = false ∧ (ObjectKind.ofName? (test.kind.getD "")).isSome

/-- The type that a test asks for. -/
theorem mapM_resolve_eq_ok {reference : Option String} {found : Option TypeId} :
    (reference.mapM fun name => (resolve name).elim (.error (.unknownType type name)) .ok :
        Except LoadError (Option TypeId)) = .ok found ↔
      (∀ name ∈ reference, (resolve name).isSome) ∧ found = reference.bind resolve := by
  cases reference with
  | none =>
      constructor
      · intro done
        cases done
        exact ⟨nofun, rfl⟩
      · rintro ⟨-, rfl⟩
        rfl
  | some name =>
      simp only [Option.mem_def, Option.some.injEq, forall_eq', Option.bind_some]
      rw [Option.mapM_some, Option.isSome_iff_exists]
      constructor
      · intro done
        obtain ⟨id, resolved, done⟩ := Outcome.bind_eq_ok.1 done
        cases done
        exact ⟨⟨id, Outcome.elim_eq_ok.1 resolved⟩, (Outcome.elim_eq_ok.1 resolved).symm⟩
      · rintro ⟨⟨id, resolved⟩, rfl⟩
        rw [resolved]
        rfl

/-- **A test compiles** if its texts are right and the type that it asks for is known. -/
theorem compileNode_eq_ok {test : LayoutTest} {n : Node} :
    compileNode type resolve test = .ok n ↔
      (trimSlashes test.path).isEmpty = false ∧
      (∀ name ∈ test.reference?, (resolve name).isSome) ∧
      ∃ kind, ObjectKind.ofName? (test.kind.getD "") = some kind ∧
        n = { path := if test.matchCase then trimSlashes test.path
                else Text.lowercase (trimSlashes test.path)
              kind
              matchCase := test.matchCase
              executable := test.executable
              nonEmpty := test.nonEmpty
              mimetype := test.reference?.bind resolve } := by
  rw [compileNode]
  cases (trimSlashes test.path).isEmpty with
  | true => exact iff_of_false nofun nofun
  | false =>
      rw [if_neg Bool.false_ne_true]
      constructor
      · intro done
        obtain ⟨kind, named, done⟩ := Outcome.bind_eq_ok.1 done
        obtain ⟨found, resolved, done⟩ := Outcome.bind_eq_ok.1 done
        obtain ⟨known, rfl⟩ := mapM_resolve_eq_ok.1 resolved
        cases done
        exact ⟨rfl, known, kind, Outcome.elim_eq_ok.1 named, rfl⟩
      · rintro ⟨-, known, kind, named, rfl⟩
        refine Outcome.bind_eq_ok.2 ⟨kind, Outcome.elim_eq_ok.2 named, ?_⟩
        exact Outcome.bind_eq_ok.2 ⟨_, mapM_resolve_eq_ok.2 ⟨known, rfl⟩, rfl⟩

theorem exists_compileNode_iff {test : LayoutTest} :
    (∃ n, compileNode type resolve test = .ok n) ↔
      WellWritten test ∧ ∀ name ∈ test.reference?, (resolve name).isSome := by
  simp only [compileNode_eq_ok, WellWritten, Option.isSome_iff_exists]
  constructor
  · rintro ⟨n, path, known, kind, named, -⟩
    exact ⟨⟨path, kind, named⟩, known⟩
  · rintro ⟨⟨path, kind, named⟩, known⟩
    exact ⟨_, path, known, kind, named, rfl⟩

/-! ## All tests of a rule -/

mutual

theorem exists_compileBelow : ∀ (test : LayoutTest),
    (∀ t ∈ test.allBelow, ∃ n, compileNode type resolve t = .ok n) →
      ∃ trees, compileBelow type resolve test = .ok trees
  | ⟨_, _, _, _, _, _, children⟩, compiles => by
      obtain ⟨here, lower⟩ := List.forall_mem_append.1 compiles
      obtain ⟨nodes, labels⟩ := Outcome.exists_mapM_eq_ok.2 here
      obtain ⟨below, each⟩ := exists_compileEachBelow children lower
      exact ⟨_, Outcome.bind_eq_ok.2 ⟨nodes, labels, Outcome.bind_eq_ok.2 ⟨below, each, rfl⟩⟩⟩

theorem exists_compileEachBelow : ∀ (tests : List LayoutTest),
    (∀ t ∈ LayoutTest.allBelowEach tests, ∃ n, compileNode type resolve t = .ok n) →
      ∃ below, compileEachBelow type resolve tests = .ok below
  | [], _ => ⟨[], rfl⟩
  | test :: tests, compiles => by
      obtain ⟨here, later⟩ := List.forall_mem_append.1 compiles
      obtain ⟨trees, first⟩ := exists_compileBelow test here
      obtain ⟨others, rest⟩ := exists_compileEachBelow tests later
      exact ⟨_, Outcome.bind_eq_ok.2 ⟨trees, first, Outcome.bind_eq_ok.2 ⟨others, rest, rfl⟩⟩⟩

end

mutual

theorem map_compileNode_allBelow : ∀ (test : LayoutTest) (trees : List (Tree Node)),
    compileBelow type resolve test = .ok trees →
      test.allBelow.map (compileNode type resolve) = (Tree.labels trees).map .ok
  | ⟨_, _, _, _, _, _, children⟩, trees, done => by
      rw [compileBelow] at done
      obtain ⟨nodes, labels, done⟩ := Outcome.bind_eq_ok.1 done
      obtain ⟨below, each, done⟩ := Outcome.bind_eq_ok.1 done
      cases done
      obtain ⟨long, lower⟩ := map_compileNode_allBelowEach children below each
      have level := Outcome.mapM_eq_ok.1 labels
      rw [LayoutTest.allBelow, Tree.labels_zipWith_node (level.length_eq.symm.trans long),
        List.map_append, List.map_append, lower, Outcome.mapM_eq_ok_iff_map.1 labels]

theorem map_compileNode_allBelowEach : ∀ (tests : List LayoutTest)
    (below : List (List (Tree Node))), compileEachBelow type resolve tests = .ok below →
      tests.length = below.length ∧
      (LayoutTest.allBelowEach tests).map (compileNode type resolve) =
        (below.flatMap Tree.labels).map .ok
  | [], below, done => by
      cases done
      exact ⟨rfl, rfl⟩
  | test :: tests, below, done => by
      rw [compileEachBelow] at done
      obtain ⟨trees, first, done⟩ := Outcome.bind_eq_ok.1 done
      obtain ⟨others, rest, done⟩ := Outcome.bind_eq_ok.1 done
      cases done
      obtain ⟨long, later⟩ := map_compileNode_allBelowEach tests others rest
      refine ⟨congrArg Nat.succ long, ?_⟩
      rw [LayoutTest.allBelowEach, List.flatMap_cons, List.map_append, List.map_append, later,
        map_compileNode_allBelow test trees first]

end

/-- The labels that compiling leaves are the compiled tests, in their order. A forest is what
is below a test, whichever that is. -/
theorem map_compileNode_forest {tests : List LayoutTest} {trees : List (Tree Node)}
    (done : compileForest type resolve tests = .ok trees) :
    (tests ++ LayoutTest.allBelowEach tests).map (compileNode type resolve) =
      (Tree.labels trees).map .ok :=
  map_compileNode_allBelow ⟨"", none, false, false, false, none, tests⟩ trees done

/-- Compiling leaves one tree for each test of a level. -/
theorem length_compileForest {tests : List LayoutTest} {trees : List (Tree Node)}
    (done : compileForest type resolve tests = .ok trees) : trees.length = tests.length := by
  rw [compileForest] at done
  obtain ⟨nodes, labels, done⟩ := Outcome.bind_eq_ok.1 done
  obtain ⟨below, each, done⟩ := Outcome.bind_eq_ok.1 done
  cases done
  have level := (Outcome.mapM_eq_ok.1 labels).length_eq
  have lower := (map_compileNode_allBelowEach tests below each).1
  rw [List.length_zipWith, ← level, ← lower, Nat.min_self]

theorem exists_compileForest_iff {tests : List LayoutTest} :
    (∃ trees, compileForest type resolve tests = .ok trees) ↔
      ∀ t ∈ tests ++ LayoutTest.allBelowEach tests, ∃ n, compileNode type resolve t = .ok n := by
  constructor
  · rintro ⟨trees, done⟩
    have all := Outcome.mapM_eq_ok_iff_map.2 (map_compileNode_forest done)
    exact Outcome.exists_mapM_eq_ok.1 ⟨_, all⟩
  · intro compiles
    exact exists_compileBelow ⟨"", none, false, false, false, none, tests⟩ compiles

/-! ## Rules -/

namespace Signature

theorem compile_eq_ok {owner : TypeId} {rule : LayoutRule} {s : Signature} :
    compile type owner rule resolve = .ok s ↔
      rule.priority.getD Magic.defaultPriority ≤ Magic.greatestPriority ∧
      ∃ trees, compileForest type resolve rule.tests = .ok trees ∧
        s = ⟨owner, rule.priority.getD Magic.defaultPriority, .ofForest trees⟩ := by
  rw [compile]
  by_cases high : Magic.greatestPriority < rule.priority.getD Magic.defaultPriority
  · rw [if_pos high]
    exact iff_of_false nofun fun allowed => absurd high (Nat.not_lt.2 allowed.1)
  · rw [if_neg high]
    constructor
    · intro done
      obtain ⟨trees, compiled, done⟩ := Outcome.bind_eq_ok.1 done
      cases done
      exact ⟨Nat.not_lt.1 high, trees, compiled, rfl⟩
    · rintro ⟨-, trees, compiled, rfl⟩
      exact Outcome.bind_eq_ok.2 ⟨trees, compiled, rfl⟩

/-- **A directory rule compiles** if it is right in itself and the types that it mentions are
known. -/
theorem exists_compile_iff {owner : TypeId} {rule : LayoutRule} :
    (∃ s, compile type owner rule resolve = .ok s) ↔
      (rule.priority.getD Magic.defaultPriority ≤ Magic.greatestPriority ∧
        ∀ test ∈ rule.allTests, WellWritten test) ∧
      ∀ name ∈ rule.references, (resolve name).isSome := by
  have forest : (∃ trees, compileForest type resolve rule.tests = .ok trees) ↔
      (∀ test ∈ rule.allTests, WellWritten test) ∧
        ∀ name ∈ rule.references, (resolve name).isSome := by
    rw [exists_compileForest_iff]
    simp only [exists_compileNode_iff, imp_and, forall_and, LayoutRule.references,
      List.mem_filterMap, LayoutRule.allTests, Option.mem_def]
    exact and_congr_right fun _ => ⟨fun known name ⟨test, mem, asked⟩ => known test mem name asked,
      fun known test mem name asked => known name ⟨test, mem, asked⟩⟩
  rw [and_assoc, ← forest]
  simp only [compile_eq_ok]
  constructor
  · rintro ⟨s, allowed, trees, compiled, rfl⟩
    exact ⟨allowed, trees, compiled⟩
  · rintro ⟨allowed, trees, compiled⟩
    exact ⟨_, allowed, trees, compiled, rfl⟩

/-- **Every type that a compiled rule asks for** is that of a name that the rule mentions. -/
theorem exists_reference_of_mem {owner : TypeId} {rule : LayoutRule} {s : Signature}
    (done : compile type owner rule resolve = .ok s) {c : Cell Node} (mem : c ∈ s.arena.nodes)
    {asked : TypeId} (asks : c.label.mimetype = some asked) :
    ∃ name ∈ rule.references, resolve name = some asked := by
  obtain ⟨-, trees, compiled, rfl⟩ := compile_eq_ok.1 done
  have label : c.label ∈ Tree.labels trees := by
    rw [← Arena.map_label_nodes]
    exact List.mem_map_of_mem (Array.mem_toList_iff.2 mem)
  have outcome : Except.ok c.label ∈ rule.allTests.map (compileNode type resolve) := by
    rw [LayoutRule.allTests, map_compileNode_forest compiled]
    exact List.mem_map_of_mem label
  obtain ⟨test, mem, here⟩ := List.mem_map.1 outcome
  obtain ⟨-, -, kind, -, whole⟩ := compileNode_eq_ok.1 here
  rw [whole] at asks
  obtain ⟨name, named, resolved⟩ := Option.bind_eq_some_iff.1 asks
  exact ⟨name, List.mem_filterMap.2 ⟨test, mem, named⟩, resolved⟩

end Signature

end Layout

end MediaSniff
