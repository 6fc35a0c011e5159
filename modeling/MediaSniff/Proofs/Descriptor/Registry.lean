/-
# MediaSniff.Proofs.Descriptor.Registry — the registry that a document describes

What a document says settles the registry before anything is compiled: one record for each
type, in the order of the names (`record`), a type for each name and each alias
(`resolve?`), and the superclasses to which the references of a type resolve
(`superclasses`). Compiling a document gives this registry and no other, if every reference
to a superclass resolves and no type stands above itself (`registryOf_about_eq_ok`).

A sentinel is the type of its name. An alias does not make one (`sentinel_eq_ok_iff`).
-/
import MediaSniff.Proofs.Database.Loading
import MediaSniff.Proofs.Descriptor.Types
import MediaSniff.Proofs.Registry.Cycle
import MediaSniff.Proofs.Registry.Lookup

set_option autoImplicit false

namespace MediaSniff

namespace Database

open Descriptor (Entry)

/-! ## Superclasses of one type -/

/-- The references of a type are resolved one by one; the type itself and what is known
already are left out. -/
theorem superclassesOf_eq_ok {names : Registry} {type : String} {id : TypeId}
    {known : List TypeId} (once : known.Nodup) {parents : List String} {found : List TypeId} :
    superclassesOf names type id known parents = .ok found ↔
      (∀ parent ∈ parents, (names.lookup? parent).isSome) ∧
      found = (known ++ (parents.filterMap names.lookup?).filter (· ≠ id)).eraseDups := by
  induction parents generalizing known with
  | nil =>
      rw [superclassesOf, Except.ok.injEq, List.filterMap_nil, List.filter_nil, List.append_nil,
        eraseDups_eq_self once]
      exact ⟨fun same => ⟨nofun, same.symm⟩, fun same => same.2.symm⟩
  | cons parent parents ih =>
      rw [superclassesOf]
      cases resolved : names.lookup? parent with
      | none => simp [resolved]
      | some p =>
          have all : (∀ reference ∈ parent :: parents, (names.lookup? reference).isSome) ↔
              ∀ reference ∈ parents, (names.lookup? reference).isSome := by
            simp [resolved]
          rw [all, List.filterMap_cons_some resolved]
          by_cases own : p = id
          · subst own
            simp only [decide_true, Bool.true_or, if_true]
            rw [ih once, List.filter_cons_of_neg (by simp)]
          · rw [List.filter_cons_of_pos (by simpa using own)]
            by_cases old : p ∈ known
            · simp only [own, decide_false, Bool.false_or, List.contains_iff_mem.2 old, if_true]
              rw [ih once, eraseDups_append_cons old]
            · have new : known.contains p = false := by simpa using old
              have onceMore : (known ++ [p]).Nodup :=
                List.nodup_append.2 ⟨once, List.nodup_singleton p, by
                  intro a mem b here
                  rw [List.mem_singleton.1 here]
                  rintro rfl
                  exact old mem⟩
              simp only [own, decide_false, Bool.false_or, new, Bool.false_eq_true, if_false]
              rw [ih onceMore, List.append_assoc, List.singleton_append]

/-- The records of entries with their superclasses. -/
theorem recordsOf_eq_ok {names : Registry} {next : Nat} {entries : List Entry}
    {records : List TypeRecord} :
    recordsOf names next entries = .ok records ↔
      (∀ e ∈ entries, ∀ parent ∈ e.subClassOf, (names.lookup? parent).isSome) ∧
      records = (entries.zipIdx next).map fun entry =>
        { recordOf entry.1 with
          superclasses :=
            ((entry.1.subClassOf.filterMap names.lookup?).filter (· ≠ ⟨entry.2⟩)).eraseDups } := by
  induction entries generalizing next records with
  | nil =>
      rw [recordsOf, Except.ok.injEq]
      exact ⟨fun same => ⟨nofun, same.symm⟩, fun same => same.2.symm⟩
  | cons e entries ih =>
      rw [recordsOf, Outcome.bind_eq_ok]
      simp only [superclassesOf_eq_ok List.nodup_nil, Outcome.bind_eq_ok, ih, List.nil_append,
        List.forall_mem_cons, List.zipIdx_cons, List.map_cons]
      constructor
      · rintro ⟨superclasses, ⟨here, rfl⟩, others, ⟨rest, rfl⟩, done⟩
        cases done
        exact ⟨⟨here, rest⟩, rfl⟩
      · rintro ⟨⟨here, rest⟩, rfl⟩
        exact ⟨_, ⟨here, rfl⟩, _, ⟨rest, rfl⟩, rfl⟩

end Database

namespace Descriptor

open Relation (TransGen)

/-! ## Names, aliases and superclasses in a document -/

variable (d : Descriptor)

/-- The type that a reference is to: the type of that name, or else the first type that
claims it as an alias. -/
def resolve? (reference : String) : Option TypeId :=
  if reference ∈ d.typeNames then some (d.typeId reference)
  else (d.typeNames.find? fun name => reference ∈ d.said (·.aliases) name).map d.typeId

/-- The direct superclasses of the type of a name. -/
def superclasses (name : String) : List TypeId :=
  (((d.about name).subClassOf.filterMap d.resolve?).filter (· ≠ d.typeId name)).eraseDups

/-- The record of the type of a name. -/
def record (name : String) : TypeRecord :=
  { Database.recordOf (d.about name) with superclasses := d.superclasses name }

/-- The registry of a document. -/
def registry : Registry := .ofList (d.typeNames.map d.record)

/-- One type is said to stand directly below another. What it says of itself does not
count. -/
def Below (child parent : TypeId) : Prop :=
  ∃ w ∈ d.written (·.subClassOf),
    d.typeId w.1 = child ∧ d.resolve? w.2 = some parent ∧ parent ≠ child

/-- No type stands above itself. -/
def Acyclic : Prop := ∀ id, ¬ TransGen d.Below id id

variable {d}

/-- No type stands above itself where superclasses have smaller numbers. -/
theorem acyclic_of_index_lt
    (smaller : ∀ child parent, d.Below child parent → parent.index < child.index) :
    d.Acyclic := by
  intro id above
  have less : ∀ child parent, TransGen d.Below child parent → parent.index < child.index := by
    intro child parent above
    induction above with
    | single edge => exact smaller _ _ edge
    | tail _ edge less => exact (smaller _ _ edge).trans less
  exact Nat.lt_irrefl _ (less id id above)

theorem mem_superclasses {name : String} {parent : TypeId} :
    parent ∈ d.superclasses name ↔
      ∃ reference, (name, reference) ∈ d.written (·.subClassOf) ∧
        d.resolve? reference = some parent ∧ parent ≠ d.typeId name := by
  simp only [superclasses, about_subClassOf, List.mem_eraseDups, List.mem_filter,
    List.mem_filterMap, mem_distinct, mem_said, decide_eq_true_eq, ne_eq]
  constructor
  · rintro ⟨⟨reference, mem, resolved⟩, other⟩
    exact ⟨reference, mem, resolved, other⟩
  · rintro ⟨reference, mem, resolved, other⟩
    exact ⟨⟨reference, mem, resolved⟩, other⟩

theorem resolve?_index_lt {reference : String} {id : TypeId}
    (resolved : d.resolve? reference = some id) : id.index < d.typeNames.length := by
  rw [resolve?] at resolved
  split at resolved
  · rename_i mem
    cases resolved
    exact typeId_index_lt mem
  · obtain ⟨name, found, rfl⟩ := Option.map_eq_some_iff.1 resolved
    exact typeId_index_lt (List.mem_of_find?_eq_some found)

/-! ## The registry -/

theorem numbered_map (make : String → TypeRecord) :
    Registry.numbered (d.typeNames.map make) =
      d.typeNames.map fun name => (d.typeId name, make name) := by
  rw [Registry.numbered, List.zipIdx_map, zipIdx_eq_map_idxOf nodup_typeNames, List.map_map,
    List.map_map]
  rfl

theorem find?_beq_eq {l : List String} {name : String} :
    (l.find? fun name' => name' == name) = if name ∈ l then some name else none := by
  cases found : l.find? fun name' => name' == name with
  | none =>
      have absent : name ∉ l := by simpa using List.find?_eq_none.1 found name
      rw [if_neg absent]
  | some name' =>
      have same : name' = name := by simpa using List.find?_some found
      have mem := List.mem_of_find?_eq_some found
      rw [same] at mem ⊢
      rw [if_pos mem]

/-- **References resolve alike in every registry of the types of a document**, so long as
each record has the name and the aliases of its type. -/
theorem lookup?_ofList_map {make : String → TypeRecord} (name : ∀ n, (make n).name = n)
    (aliases : ∀ n, (make n).aliases = distinct (d.said (·.aliases) n)) (reference : String) :
    (Registry.ofList (d.typeNames.map make)).lookup? reference = d.resolve? reference := by
  rw [Registry.lookup?_ofList, numbered_map, ← List.map_reverse, List.find?_map, List.find?_map,
    Option.map_or, Option.map_map, Option.map_map]
  have byName : (d.typeNames.reverse.find?
      ((fun e : TypeId × TypeRecord => e.2.name == reference) ∘
        fun n => (d.typeId n, make n))) =
      if reference ∈ d.typeNames then some reference else none := by
    simp only [Function.comp_def, name, find?_beq_eq, List.mem_reverse]
  have byAlias : (d.typeNames.find?
      ((fun e : TypeId × TypeRecord => e.2.aliases.contains reference) ∘
        fun n => (d.typeId n, make n))) =
      d.typeNames.find? fun n => reference ∈ d.said (·.aliases) n := by
    simp only [Function.comp_def, aliases, List.contains_eq_mem, mem_distinct]
  rw [byName, byAlias, resolve?]
  split <;> rfl

theorem lookup?_registry (reference : String) :
    d.registry.lookup? reference = d.resolve? reference :=
  lookup?_ofList_map (fun _ => rfl) (fun _ => rfl) reference

@[simp] theorem size_registry : d.registry.size = d.typeNames.length := by
  simp [Registry.size, registry, Registry.ofList]

theorem get?_registry (id : TypeId) :
    d.registry.get? id = (d.typeNames[id.index]?).map d.record := by
  simp [Registry.get?, registry, Registry.ofList]

theorem get?_typeId {name : String} (mem : name ∈ d.typeNames) :
    d.registry.get? (d.typeId name) = some (d.record name) := by
  rw [get?_registry, getElem?_typeId mem]
  rfl

theorem exists_name_of_get? {id : TypeId} {r : TypeRecord} (found : d.registry.get? id = some r) :
    ∃ name ∈ d.typeNames, d.typeId name = id ∧ r = d.record name := by
  rw [get?_registry] at found
  obtain ⟨name, here, rfl⟩ := Option.map_eq_some_iff.1 found
  obtain ⟨inside, same⟩ := List.getElem?_eq_some_iff.1 here
  refine ⟨name, List.mem_of_getElem? here, ?_, rfl⟩
  rw [typeId, ← same, nodup_typeNames.idxOf_getElem _ inside]

theorem edge_registry {child parent : TypeId} :
    d.registry.Edge child parent ↔ d.Below child parent := by
  constructor
  · intro edge
    rw [Registry.Edge, Registry.parents] at edge
    cases found : d.registry.get? child with
    | none =>
        rw [found] at edge
        cases edge
    | some r =>
        obtain ⟨name, mem, rfl, rfl⟩ := exists_name_of_get? found
        rw [found] at edge
        obtain ⟨reference, said, resolved, other⟩ := mem_superclasses.1 edge
        exact ⟨(name, reference), said, rfl, resolved, other⟩
  · rintro ⟨⟨name, reference⟩, said, rfl, resolved, other⟩
    rw [Registry.Edge, Registry.parents, get?_typeId (fst_mem_typeNames said)]
    exact mem_superclasses.2 ⟨reference, said, resolved, other⟩

/-- A hierarchy in which no type stands above itself is reported to be one. -/
theorem findCycle?_registry (acyclic : d.Acyclic) : d.registry.findCycle? = none := by
  apply Registry.findCycle?_eq_none
  intro id above
  exact acyclic id (TransGen.mono (fun _ _ => edge_registry.1) _ _ above)

/-- The records that are compiled. -/
theorem recordsOf_about_eq_ok {records : List TypeRecord} :
    Database.recordsOf (.ofList ((d.typeNames.map d.about).map Database.recordOf)) 0
        (d.typeNames.map d.about) = .ok records ↔
      (∀ w ∈ d.written (·.subClassOf), (d.resolve? w.2).isSome) ∧
      records = d.typeNames.map d.record := by
  have names : ∀ reference, (Registry.ofList
      ((d.typeNames.map d.about).map Database.recordOf)).lookup? reference =
        d.resolve? reference := by
    intro reference
    rw [List.map_map]
    exact lookup?_ofList_map (fun _ => rfl) (fun _ => rfl) reference
  have references : (∀ e ∈ d.typeNames.map d.about, ∀ parent ∈ e.subClassOf,
      (d.resolve? parent).isSome) ↔
        ∀ w ∈ d.written (·.subClassOf), (d.resolve? w.2).isSome := by
    simp only [List.forall_mem_map, about_subClassOf, mem_distinct, mem_said]
    constructor
    · intro resolves w mem
      exact resolves w.1 (fst_mem_typeNames mem) w.2 mem
    · intro resolves name _ reference mem
      exact resolves _ mem
  have records : ((d.typeNames.map d.about).zipIdx 0).map (fun entry =>
      ({ Database.recordOf entry.1 with
          superclasses := ((entry.1.subClassOf.filterMap d.resolve?).filter
            (· ≠ ⟨entry.2⟩)).eraseDups } : TypeRecord)) = d.typeNames.map d.record := by
    rw [List.zipIdx_map, zipIdx_eq_map_idxOf nodup_typeNames, List.map_map, List.map_map]
    rfl
  simp only [Database.recordsOf_eq_ok, funext names, references, records]

/-- **The registry that is compiled.** -/
theorem registryOf_about_eq_ok {registry : Registry} :
    Database.registryOf (d.typeNames.map d.about) = .ok registry ↔
      (∀ w ∈ d.written (·.subClassOf), (d.resolve? w.2).isSome) ∧
      registry = d.registry ∧ d.registry.findCycle? = none := by
  rw [Database.registryOf_eq_ok]
  simp only [recordsOf_about_eq_ok]
  constructor
  · rintro ⟨_, ⟨resolves, rfl⟩, rfl, acyclic⟩
    exact ⟨resolves, rfl, acyclic⟩
  · rintro ⟨resolves, rfl, acyclic⟩
    exact ⟨_, ⟨resolves, rfl⟩, rfl, acyclic⟩

/-! ## Sentinels -/

/-- A sentinel is the type of its name. -/
theorem sentinel_eq_ok_iff {name : String} {id : TypeId} :
    Database.sentinel d.registry name = .ok id ↔ name ∈ d.typeNames ∧ id = d.typeId name := by
  rw [Database.sentinel_eq_ok, lookup?_registry, resolve?]
  split
  · rename_i mem
    have named : d.registry.nameOf (d.typeId name) = name := by
      rw [Registry.nameOf, get?_typeId mem]
      rfl
    rw [Option.some.injEq, eq_comm, and_iff_right mem]
    exact and_iff_left_of_imp fun same => same ▸ named
  · rename_i absent
    refine iff_of_false ?_ fun here => absent here.1
    rintro ⟨found, named⟩
    -- The type that claims the name as an alias goes by another name.
    obtain ⟨name', claims, rfl⟩ := Option.map_eq_some_iff.1 found
    have mem := List.mem_of_find?_eq_some claims
    rw [Registry.nameOf, get?_typeId mem] at named
    exact absent (named ▸ mem)

/-- The names of the sentinels. -/
def sentinelNames : List String :=
  [Sentinels.unknownName, Sentinels.textName, Sentinels.emptyName, Sentinels.directoryName,
    Sentinels.xmlName]

/-- The sentinels of a document. -/
def sentinels (d : Descriptor) : Sentinels where
  unknown := d.typeId Sentinels.unknownName
  text := d.typeId Sentinels.textName
  empty := d.typeId Sentinels.emptyName
  directory := d.typeId Sentinels.directoryName
  xml := d.typeId Sentinels.xmlName

theorem sentinelsOf_registry_eq_ok {s : Sentinels} :
    Database.sentinelsOf d.registry = .ok s ↔
      (∀ name ∈ sentinelNames, name ∈ d.typeNames) ∧ s = d.sentinels := by
  cases s with
  | mk unknown text empty directory xml =>
      simp only [Database.sentinelsOf_eq_ok, sentinel_eq_ok_iff, sentinelNames, sentinels,
        List.forall_mem_cons, List.not_mem_nil, false_implies, implies_true, and_true,
        Sentinels.mk.injEq]
      tauto

end Descriptor

end MediaSniff
