/-
# MediaSniff.Proofs.Database.Rules — what the rules of a document compile to

The rules of entries are compiled kind by kind, those of one kind in the order in which they
stand (`rulesIn`), and each under the number of its entry. Compiling succeeds if the outcome
for each rule is a compiled one, and then leaves these (`compileEntries_eq_ok`).
-/
import MediaSniff.Proofs.Database.Loading
import MediaSniff.Proofs.Descriptor.GlobRules
import MediaSniff.Proofs.Descriptor.Validity

set_option autoImplicit false

namespace MediaSniff.Database

open Descriptor (Entry GlobRule MagicRule LayoutRule RootElement)

variable {ρ : Type} {registry : Registry}

/-- All rules of one kind in entries that are numbered from `next` on, each with the name
and the number of its type. -/
def rulesIn (kind : Entry → List ρ) (next : Nat) (entries : List Entry) :
    List (String × TypeId × ρ) :=
  (entries.zipIdx next).flatMap fun e => (kind e.1).map fun rule => (e.1.name, ⟨e.2⟩, rule)

theorem rulesIn_cons (kind : Entry → List ρ) (next : Nat) (e : Entry) (entries : List Entry) :
    rulesIn kind next (e :: entries) =
      ((kind e).map fun rule => (e.name, ⟨next⟩, rule)) ++ rulesIn kind (next + 1) entries :=
  rfl

/-! ## Outcomes -/

/-- The outcome for a filename rule. -/
def globOutcome (r : String × TypeId × GlobRule) : Except Glob.Error Glob :=
  Glob.compile r.2.2.pattern r.2.2.caseSensitive r.2.2.effectiveWeight r.2.1

/-- The outcome for a content rule. -/
def magicOutcome (r : String × TypeId × MagicRule) : Except Magic.Error Magic.Signature :=
  Magic.Signature.compile r.2.1 r.2.2.priority r.2.2.tests

/-- The outcome for a directory rule. -/
def layoutOutcome (resolve : String → Option TypeId) (r : String × TypeId × LayoutRule) :
    Except LoadError Layout.Signature :=
  Layout.Signature.compile r.1 r.2.1 r.2.2 resolve

/-- What a root element is registered as. -/
def rootOf (r : String × TypeId × RootElement) : Xml.Root :=
  ⟨r.2.2.namespaceUri, r.2.2.localName, r.2.1⟩

/-- A root element is registered if it is valid and has not been registered before. -/
theorem compileRoots_cons_eq_ok {type : String} {id : TypeId}
    {registered : Std.HashSet RootElement} {root : RootElement} {roots : List RootElement}
    {compiled : List Xml.Root} :
    compileRoots type id registered (root :: roots) = .ok compiled ↔
      root.Valid ∧ root ∉ registered ∧
        ∃ others, compileRoots type id (registered.insert root) roots = .ok others ∧
          compiled = rootOf (type, id, root) :: others := by
  have named : (root.namespaceUri.isEmpty && root.localName.isEmpty) = true ↔
      ¬ (root.namespaceUri ≠ "" ∨ root.localName ≠ "") := by
    simp
  have spaced : (root.namespaceUri.toList ++ root.localName.toList).any Text.isBlank = true ↔
      ¬ ∀ c ∈ root.namespaceUri.toList ++ root.localName.toList, Text.isBlank c = false := by
    simp only [List.any_eq_true, not_forall, Bool.not_eq_false, exists_prop]
  rw [compileRoots, RootElement.Valid, ← Std.HashSet.contains_iff_mem]
  split
  · rename_i nameless
    exact iff_of_false nofun fun all => named.1 nameless all.1.1
  · rename_i hasName
    split
    · rename_i blank
      exact iff_of_false nofun fun all => spaced.1 blank all.1.2
    · rename_i unspaced
      split
      · rename_i met
        exact iff_of_false nofun fun all => all.2.1 met
      · rename_i new
        rw [Outcome.bind_eq_ok]
        have valid := And.intro (not_not.1 (mt named.2 hasName)) (not_not.1 (mt spaced.2 unspaced))
        constructor
        · rintro ⟨others, rest, done⟩
          cases done
          exact ⟨valid, new, others, rest, rfl⟩
        · rintro ⟨-, -, others, rest, rfl⟩
          exact ⟨others, rest, rfl⟩

/-- Others are new beside a root element and those before it if it is not one of them. -/
theorem forall_notMem_insert {registered : Std.HashSet RootElement} {root : RootElement}
    {roots : List RootElement} :
    (∀ r ∈ roots, r ∉ registered.insert root) ↔ root ∉ roots ∧ ∀ r ∈ roots, r ∉ registered := by
  simp only [Std.HashSet.mem_insert, beq_iff_eq, not_or, imp_and, forall_and]
  refine and_congr_left fun _ => ⟨fun other mem => other root mem rfl, ?_⟩
  rintro absent r mem rfl
  exact absent mem

/-- Root elements are registered if each is valid and none has been registered before. -/
theorem compileRoots_eq_ok {type : String} {id : TypeId} {registered : Std.HashSet RootElement}
    {roots : List RootElement} {compiled : List Xml.Root} :
    compileRoots type id registered roots = .ok compiled ↔
      (∀ root ∈ roots, root.Valid) ∧ roots.Nodup ∧ (∀ root ∈ roots, root ∉ registered) ∧
        compiled = roots.map fun root => rootOf (type, id, root) := by
  induction roots generalizing registered compiled with
  | nil =>
      rw [compileRoots, Except.ok.injEq]
      exact ⟨fun same => ⟨nofun, List.nodup_nil, nofun, same.symm⟩, fun all => all.2.2.2.symm⟩
  | cons root roots ih =>
      simp only [compileRoots_cons_eq_ok, ih, forall_notMem_insert, List.nodup_cons,
        List.forall_mem_cons, List.map_cons]
      constructor
      · rintro ⟨valid, new, _, ⟨others, once, ⟨other, fresh⟩, rfl⟩, rfl⟩
        exact ⟨⟨valid, others⟩, ⟨other, once⟩, ⟨new, fresh⟩, rfl⟩
      · rintro ⟨⟨valid, others⟩, ⟨other, once⟩, ⟨new, fresh⟩, rfl⟩
        exact ⟨valid, new, _, ⟨others, once, ⟨other, fresh⟩, rfl⟩, rfl⟩

/-! ## Entries -/

/-- Rules are what entries compile to, if the root elements in `registered` are known before
them. -/
structure Compiled (registry : Registry) (next : Nat) (registered : Std.HashSet RootElement)
    (entries : List Entry) (rules : Rules) : Prop where
  globs : (rulesIn (·.globs) next entries).map globOutcome = rules.globs.map .ok
  magic : (rulesIn (·.magic) next entries).map magicOutcome = rules.magic.map .ok
  layouts : (rulesIn (·.layouts) next entries).map (layoutOutcome registry.lookup?) =
    rules.layouts.map .ok
  valid : ∀ root ∈ entries.flatMap (·.rootElements), root.Valid
  once : (entries.flatMap (·.rootElements)).Nodup
  new : ∀ root ∈ entries.flatMap (·.rootElements), root ∉ registered
  roots : rules.roots = (rulesIn (·.rootElements) next entries).map rootOf

theorem rulesIn_singleton (kind : Entry → List ρ) (next : Nat) (e : Entry) :
    rulesIn kind next [e] = (kind e).map fun rule => (e.name, ⟨next⟩, rule) :=
  List.append_nil _

/-- The rules of one entry. -/
theorem compileEntry_eq_ok_iff {next : Nat} {registered : Std.HashSet RootElement} {e : Entry}
    {part : Rules} :
    compileEntry registry ⟨next⟩ registered e = .ok part ↔
      Compiled registry next registered [e] part := by
  have globs : e.globs.map (compileGlob e.name ⟨next⟩) = part.globs.map .ok ↔
      (rulesIn (·.globs) next [e]).map globOutcome = part.globs.map .ok := by
    rw [rulesIn_singleton, List.map_map]
    exact Outcome.map_eq_map_ok_congr fun _ _ => compileGlob_eq_ok
  have magic : e.magic.map (compileMagic e.name ⟨next⟩) = part.magic.map .ok ↔
      (rulesIn (·.magic) next [e]).map magicOutcome = part.magic.map .ok := by
    rw [rulesIn_singleton, List.map_map]
    exact Outcome.map_eq_map_ok_congr fun _ _ => compileMagic_eq_ok
  have layouts : (e.layouts.map fun rule =>
      Layout.Signature.compile e.name ⟨next⟩ rule registry.lookup?) =
        (rulesIn (·.layouts) next [e]).map (layoutOutcome registry.lookup?) := by
    rw [rulesIn_singleton, List.map_map]
    rfl
  have roots : (e.rootElements.map fun root => rootOf (e.name, ⟨next⟩, root)) =
      (rulesIn (·.rootElements) next [e]).map rootOf := by
    rw [rulesIn_singleton, List.map_map]
    rfl
  have elements : [e].flatMap (·.rootElements) = e.rootElements := List.append_nil _
  rw [compileEntry_eq_ok, Outcome.mapM_eq_ok_iff_map, Outcome.mapM_eq_ok_iff_map,
    Outcome.mapM_eq_ok_iff_map, compileRoots_eq_ok, globs, magic, layouts, roots]
  constructor
  · rintro ⟨globs, magic, ⟨valid, once, new, roots⟩, layouts⟩
    rw [← elements] at valid once new
    exact ⟨globs, magic, layouts, valid, once, new, roots⟩
  · rintro ⟨globs, magic, layouts, valid, once, new, roots⟩
    rw [elements] at valid once new
    exact ⟨globs, magic, ⟨valid, once, new, roots⟩, layouts⟩

/-- Root elements are new beside those of an entry and those before it. -/
theorem forall_notMem_insertMany {registered : Std.HashSet RootElement}
    {known roots : List RootElement} :
    (∀ r ∈ roots, r ∉ registered.insertMany known) ↔
      (∀ r ∈ roots, r ∉ known) ∧ ∀ r ∈ roots, r ∉ registered := by
  simp only [Std.HashSet.mem_insertMany_list, List.contains_iff_mem, not_or, imp_and, forall_and]
  exact and_comm

/-- The rules of an entry, and behind them those of the entries that follow it. -/
theorem compiled_cons {next : Nat} {registered : Std.HashSet RootElement} {e : Entry}
    {entries : List Entry} {rules : Rules} :
    Compiled registry next registered (e :: entries) rules ↔
      ∃ part others, Compiled registry next registered [e] part ∧
        Compiled registry (next + 1) (registered.insertMany e.rootElements) entries others ∧
        rules = part.append others := by
  have elements : [e].flatMap (·.rootElements) = e.rootElements := List.append_nil _
  constructor
  · rintro ⟨globs, magic, layouts, valid, once, new, roots⟩
    rw [rulesIn_cons, ← rulesIn_singleton, List.map_append] at globs magic layouts roots
    obtain ⟨globs₁, globs₂, same, globs, globs'⟩ := Outcome.append_eq_map_ok.1 globs
    obtain ⟨magic₁, magic₂, same', magic, magic'⟩ := Outcome.append_eq_map_ok.1 magic
    obtain ⟨layouts₁, layouts₂, same'', layouts, layouts'⟩ := Outcome.append_eq_map_ok.1 layouts
    rw [List.flatMap_cons] at valid once new
    obtain ⟨valid, valid'⟩ := List.forall_mem_append.1 valid
    obtain ⟨new, new'⟩ := List.forall_mem_append.1 new
    obtain ⟨once, once', apart⟩ := List.nodup_append.1 once
    refine ⟨⟨globs₁, magic₁, _, layouts₁⟩, ⟨globs₂, magic₂, _, layouts₂⟩,
      ⟨globs, magic, layouts, ?_, ?_, ?_, rfl⟩,
      ⟨globs', magic', layouts', valid', once', ?_, rfl⟩, ?_⟩
    · rwa [elements]
    · rwa [elements]
    · rwa [elements]
    · rw [forall_notMem_insertMany]
      exact ⟨fun r later here => apart r here r later rfl, new'⟩
    · cases rules
      simp only at same same' same'' roots
      rw [same, same', same'', roots]
      rfl
  · rintro ⟨part, others, first, rest, rfl⟩
    have new := forall_notMem_insertMany.1 rest.new
    refine ⟨?_, ?_, ?_, ?_, ?_, ?_, ?_⟩
    · rw [rulesIn_cons, ← rulesIn_singleton, List.map_append, first.globs, rest.globs,
        ← List.map_append]
      rfl
    · rw [rulesIn_cons, ← rulesIn_singleton, List.map_append, first.magic, rest.magic,
        ← List.map_append]
      rfl
    · rw [rulesIn_cons, ← rulesIn_singleton, List.map_append, first.layouts, rest.layouts,
        ← List.map_append]
      rfl
    · rw [List.flatMap_cons, ← elements]
      exact List.forall_mem_append.2 ⟨first.valid, rest.valid⟩
    · rw [List.flatMap_cons, ← elements]
      refine List.nodup_append.2 ⟨first.once, rest.once, ?_⟩
      rintro r here _ later rfl
      rw [elements] at here
      exact new.1 r later here
    · rw [List.flatMap_cons, ← elements]
      exact List.forall_mem_append.2 ⟨first.new, new.2⟩
    · rw [rulesIn_cons, ← rulesIn_singleton, List.map_append, ← first.roots, ← rest.roots]
      rfl

/-- **Compiling entries** leaves a rule for each rule. -/
theorem compileEntries_eq_ok {next : Nat} {registered : Std.HashSet RootElement}
    {entries : List Entry} {rules : Rules} :
    compileEntries registry next registered entries = .ok rules ↔
      Compiled registry next registered entries rules := by
  induction entries generalizing next registered rules with
  | nil =>
      rw [compileEntries, Except.ok.injEq]
      constructor
      · rintro rfl
        exact ⟨rfl, rfl, rfl, List.forall_mem_nil _, List.nodup_nil, List.forall_mem_nil _, rfl⟩
      · rintro ⟨globs, magic, layouts, -, -, -, roots⟩
        obtain ⟨_, _, _, _⟩ := rules
        simp only [rulesIn, List.zipIdx_nil, List.flatMap_nil, List.map_nil, eq_comm,
          List.map_eq_nil_iff] at globs magic layouts roots
        rw [globs, magic, layouts, roots]
  | cons e entries ih =>
      rw [compileEntries, Outcome.bind_eq_ok, compiled_cons]
      simp only [Outcome.bind_eq_ok, compileEntry_eq_ok_iff, ih]
      constructor
      · rintro ⟨part, first, others, rest, done⟩
        cases done
        exact ⟨part, others, first, rest, rfl⟩
      · rintro ⟨part, others, first, rest, rfl⟩
        exact ⟨part, first, others, rest, rfl⟩

end MediaSniff.Database
