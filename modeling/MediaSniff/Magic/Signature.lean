/-
# MediaSniff.Magic.Signature — content rules

A signature is a forest of byte tests: siblings are alternatives, and a test with
tests below it also needs one of those. So a document matches exactly when all tests
on some way from a root down to a leaf hold. The forest is kept in an arena.

Compiling visits a level before anything below it, and the blocks below in the order
of their parents; the first fault met in that order is the one reported.
-/
import MediaSniff.Arena
import MediaSniff.Magic.Node
import MediaSniff.TypeId

set_option autoImplicit false

namespace MediaSniff.Magic

/-- The priority of a rule that states none. -/
def defaultPriority : Nat := 50

/-- The greatest priority. -/
def greatestPriority : Nat := 100

/-- A compiled content rule. -/
structure Signature where
  owner : TypeId
  priority : Nat
  arena : Arena Node
  deriving DecidableEq, Repr

mutual

/-- The compiled tests directly below a test, each with all that is below it. -/
def compileBelow : Descriptor.MatchRule → Except Error (List (Tree Node))
  | ⟨_, _, _, _, children⟩ => do
      let nodes ← children.mapM compileNode
      let below ← compileEachBelow children
      return List.zipWith .node nodes below

/-- The compiled tests below each of several tests. -/
def compileEachBelow : List Descriptor.MatchRule → Except Error (List (List (Tree Node)))
  | [] => return []
  | rule :: rules => do
      let below ← compileBelow rule
      let others ← compileEachBelow rules
      return below :: others

end

/-- Compile a level of tests with all that is below. -/
def compileForest (rules : List Descriptor.MatchRule) : Except Error (List (Tree Node)) := do
  let nodes ← rules.mapM compileNode
  let below ← compileEachBelow rules
  return List.zipWith .node nodes below

namespace Signature

/-- Compile a content rule. -/
def compile (owner : TypeId) (priority : Option Nat) (rules : List Descriptor.MatchRule) :
    Except Error Signature := do
  let priority := priority.getD defaultPriority
  if greatestPriority < priority then throw (.priorityOutOfRange priority)
  return { owner, priority, arena := .ofForest (← compileForest rules) }

/-- How many tests there are. -/
def nodeCount (s : Signature) : Nat := s.arena.size

/-- The fewest pattern bytes that a matching way compares. -/
def leastPatternLength (s : Signature) : Nat :=
  s.arena.cheapestWay fun n => n.pattern.length

/-- One past the last byte that any test can look at. -/
def extent (s : Signature) : Nat :=
  s.arena.nodes.foldl (fun most c => max most c.label.extent) 0

/-- Whether a document matches. -/
def accepts (s : Signature) (document : ByteArray) : Bool :=
  s.arena.someWay (·.holds document)

end Signature

end MediaSniff.Magic
