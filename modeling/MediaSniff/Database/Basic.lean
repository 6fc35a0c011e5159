/-
# MediaSniff.Database.Basic — compiling a database

A database is compiled from a document in three steps: the entries are merged, which
numbers the types; names are resolved, which gives the hierarchy and the sentinels; then
every rule is compiled. Anything faulty refuses the whole, and of several faults the
first in this order is reported: within the last step entry by entry, and in each entry
filename rules, content rules, root elements, directory rules.
-/
import MediaSniff.Descriptor.Merge
import MediaSniff.Descriptor.Read
import MediaSniff.Glob.Compile
import MediaSniff.Glob.Index
import MediaSniff.Layout.Table
import MediaSniff.Magic.Table
import MediaSniff.Registry.Hierarchy
import MediaSniff.Xml.RootTable

set_option autoImplicit false

namespace MediaSniff

open Descriptor

/-- A compiled database. -/
structure Database where
  registry : Registry
  globs : Glob.Index
  magic : Magic.Table
  roots : Xml.RootTable
  layouts : Layout.Table
  sentinels : Sentinels

namespace Database

/-- The filename ending that a rule of the form `*.ending` speaks of, with its dot. -/
def endingOf? (rule : GlobRule) : Option String :=
  match rule.pattern.toList with
  | '*' :: '.' :: c :: cs =>
      let ending := '.' :: c :: cs
      if ending.any fun c => c = '*' || c = '[' || c = ']' then none
      else
        let ending := String.ofList ending
        some (if rule.caseSensitive then ending else Text.lowercase ending)
  | _ => none

/-- The record of an entry, still without superclasses. -/
def recordOf (e : Entry) : TypeRecord where
  name := e.name
  comment := e.comment
  acronym := e.acronym
  expandedAcronym := e.expandedAcronym
  icon := e.icon
  genericIcon := e.genericIcon
  aliases := e.aliases
  extensions := distinct (e.globs.filterMap endingOf?)

/-- The types of a list of names, without the type itself and without repetition. -/
def superclassesOf (names : Registry) (type : String) (id : TypeId) :
    (known : List TypeId) → List String → Except LoadError (List TypeId)
  | known, [] => .ok known
  | known, parent :: parents =>
      match names.lookup? parent with
      | none => .error (.unknownType type parent)
      | some p =>
          superclassesOf names type id
            (if p = id || known.contains p then known else known ++ [p]) parents

/-- The records of entries, numbered from `next` on. -/
def recordsOf (names : Registry) : (next : Nat) → List Entry →
    Except LoadError (List TypeRecord)
  | _, [] => .ok []
  | next, e :: entries => do
      let superclasses ← superclassesOf names e.name ⟨next⟩ [] e.subClassOf
      let records ← recordsOf names (next + 1) entries
      .ok ({ recordOf e with superclasses } :: records)

/-- The registry of merged entries. Names are all known before any superclass is looked
up. -/
def registryOf (merged : List Entry) : Except LoadError Registry := do
  let records ← recordsOf (.ofList (merged.map recordOf)) 0 merged
  let registry := Registry.ofList records
  match registry.findCycle? with
  | some id => .error (.subclassCycle (registry.nameOf id))
  | none => .ok registry

/-- The sentinel of a name, which must be a canonical one. -/
def sentinel (registry : Registry) (name : String) : Except LoadError TypeId :=
  match (registry.lookup? name).filter fun id => registry.nameOf id == name with
  | some id => .ok id
  | none => .error (.missingSentinel name)

def sentinelsOf (registry : Registry) : Except LoadError Sentinels := do
  return {
    unknown := ← sentinel registry Sentinels.unknownName
    text := ← sentinel registry Sentinels.textName
    empty := ← sentinel registry Sentinels.emptyName
    directory := ← sentinel registry Sentinels.directoryName
    xml := ← sentinel registry Sentinels.xmlName }

/-- Compiled rules. -/
structure Rules where
  globs : List Glob := []
  magic : List Magic.Signature := []
  roots : List Xml.Root := []
  layouts : List Layout.Signature := []

/-- Rules and further rules. -/
def Rules.append (a b : Rules) : Rules where
  globs := a.globs ++ b.globs
  magic := a.magic ++ b.magic
  roots := a.roots ++ b.roots
  layouts := a.layouts ++ b.layouts

/-- Compile a filename rule of a type. -/
def compileGlob (type : String) (id : TypeId) (rule : GlobRule) : Except LoadError Glob :=
  match Glob.compile rule.pattern rule.caseSensitive rule.effectiveWeight id with
  | .ok g => .ok g
  | .error (.weightOutOfRange weight) => .error (.invalidWeight type rule.pattern weight)
  | .error cause => .error (.invalidGlob type rule.pattern cause)

/-- Compile a content rule of a type. -/
def compileMagic (type : String) (id : TypeId) (rule : MagicRule) :
    Except LoadError Magic.Signature :=
  match Magic.Signature.compile id rule.priority rule.tests with
  | .ok s => .ok s
  | .error (.priorityOutOfRange priority) => .error (.invalidPriority type priority)
  | .error cause => .error (.invalidMagic type cause)

/-- Register root elements of a type, which must differ from those registered before. -/
def compileRoots (type : String) (id : TypeId) (registered : Std.HashSet RootElement) :
    List RootElement → Except LoadError (List Xml.Root)
  | [] => .ok []
  | root :: roots =>
      if root.namespaceUri.isEmpty && root.localName.isEmpty then
        .error (.emptyRootElement type)
      else if (root.namespaceUri.toList ++ root.localName.toList).any Text.isBlank then
        .error (.spacedRootElement type)
      else if registered.contains root then
        .error (.duplicateRootElement type root.namespaceUri root.localName)
      else do
        let others ← compileRoots type id (registered.insert root) roots
        .ok (⟨root.namespaceUri, root.localName, id⟩ :: others)

/-- Compile the rules of an entry. -/
def compileEntry (registry : Registry) (id : TypeId) (registered : Std.HashSet RootElement)
    (e : Entry) : Except LoadError Rules := do
  return {
    globs := ← e.globs.mapM (compileGlob e.name id)
    magic := ← e.magic.mapM (compileMagic e.name id)
    roots := ← compileRoots e.name id registered e.rootElements
    layouts := ← e.layouts.mapM fun rule =>
      Layout.Signature.compile e.name id rule registry.lookup? }

/-- Compile the rules of entries, numbered from `next` on. -/
def compileEntries (registry : Registry) : (next : Nat) →
    (registered : Std.HashSet RootElement) → List Entry → Except LoadError Rules
  | _, _, [] => .ok {}
  | next, registered, e :: entries => do
      let rules ← compileEntry registry ⟨next⟩ registered e
      let others ← compileEntries registry (next + 1) (registered.insertMany e.rootElements) entries
      .ok (rules.append others)

/-- Compile a document. -/
def ofDescriptor (d : Descriptor) : Except LoadError Database := do
  let merged ← merge d.entries
  let registry ← registryOf merged
  let sentinels ← sentinelsOf registry
  let rules ← compileEntries registry 0 ∅ merged
  return {
    registry, sentinels
    globs := .ofList rules.globs sentinels.unknown
    magic := .ofList rules.magic sentinels
    roots := .ofList rules.roots sentinels
    layouts := .ofList rules.layouts sentinels }

/-- Compile a document written as JSON. -/
def ofJson (text : String) : Except LoadError Database :=
  match Descriptor.parse? text with
  | some d => ofDescriptor d
  | none => .error .malformed

end Database

end MediaSniff
