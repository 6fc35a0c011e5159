/-
# MediaSniff.Layout.Signature — directory rules

A layout signature is a forest of tests on what a directory holds. The roots are
alternatives, but a test with tests below it needs all of those. All paths are relative
to the directory, also those of tests below another.

Compiling visits the tests in the order in which content rules are compiled: a level
before anything below it.
-/
import MediaSniff.Arena
import MediaSniff.Descriptor
import MediaSniff.Glob.Index
import MediaSniff.Layout.Snapshot
import MediaSniff.LoadError
import MediaSniff.Magic.Signature

set_option autoImplicit false

namespace MediaSniff.Layout

/-- What kind of object must stand at a path. -/
inductive ObjectKind where
  | any
  | file
  | directory
  | link
  deriving DecidableEq, Repr

namespace ObjectKind

/-- The kind of a name; no name, or the empty one, is any kind. -/
def ofName? : String → Option ObjectKind
  | "" => some .any
  | "file" => some .file
  | "directory" => some .directory
  | "link" => some .link
  | _ => none

def accepts : ObjectKind → EntryKind → Bool
  | .any, _ => true
  | .file, kind => kind == .file
  | .directory, kind => kind == .directory
  | .link, kind => kind == .symlink

end ObjectKind

/-- A compiled layout test. The path is lowercased unless case matters. -/
structure Node where
  path : String
  kind : ObjectKind
  matchCase : Bool
  executable : Bool
  nonEmpty : Bool
  mimetype : Option TypeId
  deriving DecidableEq, Repr

/-- Whether there is something in an entry: in a directory, anything below it, and in
anything else at least one byte. -/
def populated (s : Snapshot) (n : Node) (e : Entry) : Bool :=
  if e.kind = .directory then s.hasBelow n.path n.matchCase else 0 < e.size

/-- Whether a directory passes a test. -/
def Node.holds (n : Node) (globs : Glob.Index) (s : Snapshot) : Bool :=
  match s.find? n.path n.matchCase with
  | none => false
  | some e =>
      n.kind.accepts e.kind &&
        (!n.executable || e.isExecutable) &&
        n.mimetype.all (fun type => globs.best e.name == type) &&
        (!n.nonEmpty || populated s n e)

/-- A path without the slashes at its ends. -/
def trimSlashes (path : String) : String :=
  let trimmed := path.toList.dropWhile (· = '/')
  String.ofList (trimmed.reverse.dropWhile (· = '/')).reverse

/-- Compile one test of a rule for the type called `type`, without regard to the tests
below it. -/
def compileNode (type : String) (resolve : String → Option TypeId)
    (test : Descriptor.LayoutTest) : Except LoadError Node := do
  let path := trimSlashes test.path
  if path.isEmpty then throw (.missingPath type)
  let kindName := test.kind.getD ""
  let kind ← (ObjectKind.ofName? kindName).elim
    (.error (.unknownObjectKind type kindName test.path)) .ok
  let mimetype ← (test.mimetype.filter (!·.isEmpty)).mapM fun name =>
    (resolve name).elim (.error (.unknownType type name)) .ok
  return {
    path := if test.matchCase then path else Text.lowercase path
    kind, mimetype
    matchCase := test.matchCase
    executable := test.executable
    nonEmpty := test.nonEmpty }

mutual

/-- The compiled tests directly below a test, each with all that is below it. -/
def compileBelow (type : String) (resolve : String → Option TypeId) :
    Descriptor.LayoutTest → Except LoadError (List (Tree Node))
  | ⟨_, _, _, _, _, _, children⟩ => do
      let nodes ← children.mapM (compileNode type resolve)
      let below ← compileEachBelow type resolve children
      return List.zipWith .node nodes below

/-- The compiled tests below each of several tests. -/
def compileEachBelow (type : String) (resolve : String → Option TypeId) :
    List Descriptor.LayoutTest → Except LoadError (List (List (Tree Node)))
  | [] => return []
  | test :: tests => do
      let below ← compileBelow type resolve test
      let others ← compileEachBelow type resolve tests
      return below :: others

end

/-- Compile a level of tests with all that is below. -/
def compileForest (type : String) (resolve : String → Option TypeId)
    (tests : List Descriptor.LayoutTest) : Except LoadError (List (Tree Node)) := do
  let nodes ← tests.mapM (compileNode type resolve)
  let below ← compileEachBelow type resolve tests
  return List.zipWith .node nodes below

/-- A compiled directory rule. -/
structure Signature where
  owner : TypeId
  priority : Nat
  arena : Arena Node
  deriving DecidableEq, Repr

namespace Signature

/-- Compile a directory rule of the type called `type`. `resolve` finds the types that
tests name. -/
def compile (type : String) (owner : TypeId) (rule : Descriptor.LayoutRule)
    (resolve : String → Option TypeId) : Except LoadError Signature := do
  let priority := rule.priority.getD Magic.defaultPriority
  if Magic.greatestPriority < priority then throw (.invalidPriority type priority)
  return { owner, priority, arena := .ofForest (← compileForest type resolve rule.tests) }

/-- How many tests there are. -/
def nodeCount (s : Signature) : Nat := s.arena.size

/-- Whether a directory matches. -/
def accepts (s : Signature) (globs : Glob.Index) (snapshot : Snapshot) : Bool :=
  s.arena.someTree (·.holds globs snapshot)

end Signature

end MediaSniff.Layout
