/-
# MediaSniff.Proofs.Database.Document — what a document loads to

Of a document that loads, the database is known: its registry and its sentinels are those of
the document, and of each kind of rules it holds what the rules of the document, as they are
written, compile to (`Inventory`). And whether a document loads can be read off it
(`loads_iff`). Both are the steps of compiling read from their end to their beginning: the
compiled rules are those of the merged entries, and the merged entries say what the document
says, type by type.
-/
import MediaSniff.Proofs.Database.Rules
import MediaSniff.Proofs.Glob.Holdings

set_option autoImplicit false

namespace MediaSniff.Database

open Descriptor (Entry GlobRule MagicRule LayoutRule RootElement isMediaType sentinelNames)

variable {ρ : Type} {d : Descriptor} {db : Database}

/-! ## The rules of merged entries -/

theorem rulesIn_about (kind : Entry → List ρ) :
    rulesIn kind 0 (d.typeNames.map d.about) =
      d.typeNames.flatMap fun name =>
        (kind (d.about name)).map fun rule => (name, d.typeId name, rule) := by
  rw [rulesIn, List.zipIdx_map, zipIdx_eq_map_idxOf Descriptor.nodup_typeNames, List.map_map,
    List.flatMap_map]
  rfl

/-- What is made of rules that merging does not touch is what is made of the written ones. -/
theorem map_rulesIn_perm {β : Type} (d : Descriptor) (kind : Entry → List ρ)
    (kept : ∀ name, kind (d.about name) = d.said kind name) (make : String × TypeId × ρ → β) :
    ((rulesIn kind 0 (d.typeNames.map d.about)).map make).Perm
      ((d.written kind).map fun w => make (w.1, d.typeId w.1, w.2)) := by
  have parts := (Descriptor.flatMap_said_perm d kind).map fun w => make (w.1, d.typeId w.1, w.2)
  rw [List.map_flatMap] at parts
  simpa only [rulesIn_about, kept, List.map_flatMap, List.map_map, Function.comp_def] using parts

/-- What filename rules compile to is what their keys and greatest weights compile to. -/
theorem map_globOutcome_perm (d : Descriptor) :
    ((rulesIn (·.globs) 0 (d.typeNames.map d.about)).map globOutcome).Perm
      (d.globKeys.map fun key =>
        Glob.compile key.2.1 key.2.2 (d.greatestWeight key) (d.typeId key.1)) := by
  have parts := Descriptor.globs_perm d fun name key weight =>
    Glob.compile key.1 key.2 weight (d.typeId name)
  rw [rulesIn_about, List.map_flatMap]
  simp only [List.map_map, Function.comp_def]
  exact parts

theorem rootElements_perm (d : Descriptor) :
    ((d.typeNames.map d.about).flatMap (·.rootElements)).Perm
      ((d.written (·.rootElements)).map (·.2)) := by
  have parts := (Descriptor.flatMap_said_perm d (·.rootElements)).map (·.2)
  rw [List.map_flatMap] at parts
  simpa only [List.flatMap_map, Descriptor.about_rootElements, List.map_map, Function.comp_def,
    List.map_id'] using parts

/-! ## The database of a document -/

/-- A database holds what a document says, and nothing else: the types and the sentinels; of
filename rules one for each key, with the greatest weight; and one compiled rule for every
other rule, owned by the type that it stands with. -/
structure Inventory (d : Descriptor) (db : Database) : Prop where
  registry : db.registry = d.registry
  sentinels : db.sentinels = d.sentinels
  globs : (d.globKeys.map fun key => Glob.compile key.2.1 key.2.2 (d.greatestWeight key)
    (d.typeId key.1)).Perm (db.globs.rules.map .ok)
  magic : ((d.written (·.magic)).map fun w => Magic.Signature.compile (d.typeId w.1)
    w.2.priority w.2.tests).Perm (db.magic.signatures.map .ok)
  layouts : ((d.written (·.layouts)).map fun w => Layout.Signature.compile w.1 (d.typeId w.1)
    w.2 db.registry.lookup?).Perm (db.layouts.signatures.map .ok)
  roots : ((d.written (·.rootElements)).map fun w =>
    (⟨w.2.namespaceUri, w.2.localName, d.typeId w.1⟩ : Xml.Root)).Perm db.roots.roots

/-- **A loaded database holds what its document says.** -/
theorem Loading.inventory (l : Loading d db) : Inventory d db := by
  obtain ⟨merged, rules, merge_eq, registry_eq, sentinels_eq, rules_eq, globs_eq, magic_eq,
    roots_eq, layouts_eq⟩ := l
  obtain ⟨-, rfl⟩ := Descriptor.merge_eq_ok.1 merge_eq
  obtain ⟨-, registry, -⟩ := Descriptor.registryOf_about_eq_ok.1 registry_eq
  rw [registry] at sentinels_eq rules_eq
  have compiled := compileEntries_eq_ok.1 rules_eq
  refine ⟨registry, (Descriptor.sentinelsOf_registry_eq_ok.1 sentinels_eq).2, ?_, ?_, ?_, ?_⟩
  · have filed : db.globs.rules.Perm rules.globs := globs_eq ▸ Glob.Index.rules_ofList _ _
    refine (map_globOutcome_perm d).symm.trans ?_
    rw [compiled.globs]
    exact filed.symm.map _
  · have sorted : db.magic.signatures.Perm rules.magic := magic_eq ▸ List.mergeSort_perm _ _
    refine (map_rulesIn_perm d (·.magic) (fun _ => rfl) magicOutcome).symm.trans ?_
    rw [compiled.magic]
    exact sorted.symm.map _
  · have sorted : db.layouts.signatures.Perm rules.layouts :=
      layouts_eq ▸ List.mergeSort_perm _ _
    rw [registry]
    refine (map_rulesIn_perm d (·.layouts) (fun _ => rfl)
      (layoutOutcome d.registry.lookup?)).symm.trans ?_
    rw [compiled.layouts]
    exact sorted.symm.map _
  · have sorted : db.roots.roots.Perm rules.roots := roots_eq ▸ List.mergeSort_perm _ _
    refine (map_rulesIn_perm d (·.rootElements) (fun _ => rfl) rootOf).symm.trans ?_
    rw [← compiled.roots]
    exact sorted.symm

/-! ## Which documents load -/

/-- What a document needs in order to load. Of filename rules that are one but for their
weights, only the greatest weight matters. -/
structure Loadable (d : Descriptor) : Prop where
  names : ∀ e ∈ d.entries, isMediaType e.name = true
  superclasses : ∀ w ∈ d.written (·.subClassOf), (d.resolve? w.2).isSome
  acyclic : d.registry.findCycle? = none
  sentinels : ∀ name ∈ sentinelNames, name ∈ d.typeNames
  globs : ∀ key ∈ d.globKeys, (1 ≤ d.greatestWeight key ∧ d.greatestWeight key ≤ 100) ∧
    Glob.Readable key.2.1 key.2.2
  magic : ∀ w ∈ d.written (·.magic), w.2.Compiles
  layouts : ∀ w ∈ d.written (·.layouts), w.2.Compiles
  mimetypes : ∀ w ∈ d.written (·.layouts), ∀ name ∈ w.2.references, (d.resolve? name).isSome
  rootElements : ∀ w ∈ d.written (·.rootElements), w.2.Valid
  once : ((d.written (·.rootElements)).map (·.2)).Nodup

theorem exists_globs_iff :
    (∃ globs : List Glob, (rulesIn (·.globs) 0 (d.typeNames.map d.about)).map globOutcome =
      globs.map .ok) ↔
      ∀ key ∈ d.globKeys, (1 ≤ d.greatestWeight key ∧ d.greatestWeight key ≤ 100) ∧
        Glob.Readable key.2.1 key.2.2 := by
  rw [Outcome.exists_eq_map_ok_of_perm (map_globOutcome_perm d), List.forall_mem_map]
  simp only [Glob.exists_compile_iff]

theorem exists_magic_iff :
    (∃ magic : List Magic.Signature,
      (rulesIn (·.magic) 0 (d.typeNames.map d.about)).map magicOutcome = magic.map .ok) ↔
      ∀ w ∈ d.written (·.magic), w.2.Compiles := by
  rw [Outcome.exists_eq_map_ok_of_perm (map_rulesIn_perm d (·.magic) (fun _ => rfl) magicOutcome),
    List.forall_mem_map]
  simp only [magicOutcome, Magic.Signature.exists_compile_iff, MagicRule.compiles_iff]

theorem exists_layouts_iff :
    (∃ layouts : List Layout.Signature, (rulesIn (·.layouts) 0 (d.typeNames.map d.about)).map
      (layoutOutcome d.registry.lookup?) = layouts.map .ok) ↔
      (∀ w ∈ d.written (·.layouts), w.2.Compiles) ∧
        ∀ w ∈ d.written (·.layouts), ∀ name ∈ w.2.references, (d.resolve? name).isSome := by
  rw [Outcome.exists_eq_map_ok_of_perm (map_rulesIn_perm d (·.layouts) (fun _ => rfl)
    (layoutOutcome d.registry.lookup?)), List.forall_mem_map]
  simp only [layoutOutcome, Layout.Signature.exists_compile_iff, LayoutRule.compiles_iff,
    Descriptor.lookup?_registry, imp_and, forall_and]

/-- **Which documents load.** -/
theorem loads_iff : (∃ db, ofDescriptor d = .ok db) ↔ Loadable d := by
  have elements := rootElements_perm d
  constructor
  · rintro ⟨db, loaded⟩
    obtain ⟨merged, rules, merge_eq, registry_eq, sentinels_eq, rules_eq, -, -, -, -⟩ :=
      (ofDescriptor_eq_ok.1 loaded).some
    obtain ⟨names, rfl⟩ := Descriptor.merge_eq_ok.1 merge_eq
    obtain ⟨superclasses, registry, acyclic⟩ := Descriptor.registryOf_about_eq_ok.1 registry_eq
    rw [registry] at sentinels_eq rules_eq
    have compiled := compileEntries_eq_ok.1 rules_eq
    obtain ⟨layouts, mimetypes⟩ := exists_layouts_iff.1 ⟨_, compiled.layouts⟩
    refine ⟨names, superclasses, acyclic, (Descriptor.sentinelsOf_registry_eq_ok.1 sentinels_eq).1,
      exists_globs_iff.1 ⟨_, compiled.globs⟩, exists_magic_iff.1 ⟨_, compiled.magic⟩, layouts,
      mimetypes, ?_, elements.nodup_iff.1 compiled.once⟩
    intro w mem
    exact compiled.valid w.2 (elements.mem_iff.2 (List.mem_map_of_mem mem))
  · intro able
    obtain ⟨globs, globs_eq⟩ := exists_globs_iff.2 able.globs
    obtain ⟨magic, magic_eq⟩ := exists_magic_iff.2 able.magic
    obtain ⟨layouts, layouts_eq⟩ := exists_layouts_iff.2 ⟨able.layouts, able.mimetypes⟩
    have valid : ∀ root ∈ (d.typeNames.map d.about).flatMap (·.rootElements), root.Valid := by
      intro root mem
      obtain ⟨w, written, rfl⟩ := List.mem_map.1 (elements.mem_iff.1 mem)
      exact able.rootElements w written
    let rules : Rules :=
      { globs, magic, layouts
        roots := (rulesIn (·.rootElements) 0 (d.typeNames.map d.about)).map rootOf }
    have compiled : Compiled d.registry 0 ∅ (d.typeNames.map d.about) rules :=
      ⟨globs_eq, magic_eq, layouts_eq, valid, elements.nodup_iff.2 able.once,
        fun _ _ => Std.HashSet.not_mem_empty, rfl⟩
    refine ⟨{ registry := d.registry, sentinels := d.sentinels
              globs := .ofList rules.globs d.sentinels.unknown
              magic := .ofList rules.magic d.sentinels
              roots := .ofList rules.roots d.sentinels
              layouts := .ofList rules.layouts d.sentinels }, ofDescriptor_eq_ok.2 ⟨?_⟩⟩
    exact {
      merged := d.typeNames.map d.about
      rules
      merge_eq := Descriptor.merge_eq_ok.2 ⟨able.names, rfl⟩
      registry_eq := Descriptor.registryOf_about_eq_ok.2 ⟨able.superclasses, rfl, able.acyclic⟩
      sentinels_eq := Descriptor.sentinelsOf_registry_eq_ok.2 ⟨able.sentinels, rfl⟩
      rules_eq := compileEntries_eq_ok.2 compiled
      globs_eq := rfl
      magic_eq := rfl
      roots_eq := rfl
      layouts_eq := rfl }

end MediaSniff.Database
