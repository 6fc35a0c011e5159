/-
# MediaSniff.Proofs.Database.Faithful — nothing lost, nothing invented

A sound document loads, and what is loaded is what the document says: one type for each
name, one filename rule for each pattern of a type and treatment of case, and one compiled
rule for every other rule (`ofDescriptor_faithful`).

That a document loads does not make each of its rules right. Filename rules that are one but
for their weights are united before any of them is compiled, and then only the greatest
weight is looked at. So a weight of zero beside a proper one is dropped without a word
(`weightless_overlooked`). Nothing else gets by: where no weight is zero, a document that
loads is right rule by rule (`rulesValid_iff_of_loads`).
-/
import MediaSniff.Proofs.Database.Document

set_option autoImplicit false

namespace MediaSniff.Database

open Descriptor (GlobRule sentinelNames)

variable {d : Descriptor} {db : Database}

/-! ## Sound documents -/

/-- A sound document has all that it needs in order to load. -/
theorem loadable_of_sound (sound : d.Sound) : Loadable d where
  names := sound.names
  superclasses := sound.superclasses
  acyclic := Descriptor.findCycle?_registry sound.acyclic
  sentinels := sound.sentinels
  globs := by
    intro key mem
    obtain ⟨rule, written, same, weight⟩ := Descriptor.exists_greatestWeight mem
    rw [← weight, ← same]
    exact GlobRule.compiles_iff.1 (sound.globs _ written)
  magic := sound.magic
  layouts := sound.layouts
  mimetypes := sound.mimetypes
  rootElements := sound.rootElements
  once := sound.once

theorem map_name_records (d : Descriptor) :
    d.registry.records.toList.map (·.name) = d.typeNames := by
  rw [Descriptor.registry, Registry.ofList, List.toList_toArray, List.map_map]
  exact List.map_id' _

/-- **Loading loses nothing and invents nothing.** A sound document loads. And whichever
document loads, there is one record for each name of a type, in the order in which the names
first appear, and the tables hold what the document says. -/
theorem ofDescriptor_faithful (d : Descriptor) :
    (d.Sound → ∃ db, ofDescriptor d = .ok db) ∧
    ∀ db, ofDescriptor d = .ok db →
      db.registry.records.toList.map (·.name) = d.typeNames ∧ Inventory d db := by
  refine ⟨fun sound => loads_iff.2 (loadable_of_sound sound), fun db loaded => ?_⟩
  obtain ⟨l⟩ := ofDescriptor_eq_ok.1 loaded
  have holds := l.inventory
  refine ⟨?_, holds⟩
  rw [holds.registry]
  exact map_name_records d

/-- A type of notes that is spoken of twice, and directories that hold an index of them. -/
def shelf : Descriptor where
  entries := (sentinelNames.map fun name => { name }) ++
    [{ name := "text/x-note", aliases := ["text/note"], subClassOf := [Sentinels.textName]
       globs := [{ pattern := "*.note", weight := some 20 }]
       magic := [{ tests := [{ offset := "0", kind := "string", value := "note" }] }] },
     { name := "x-content/notes"
       layouts := [{ tests := [{ path := "index", mimetype := some "text/note" }] }]
       rootElements := [{ localName := "notes" }] },
     { name := "text/x-note", globs := [{ pattern := "*.note", weight := some 80 }] }]

theorem shelf_acyclic : shelf.Acyclic := by
  apply Descriptor.acyclic_of_index_lt
  have each : ∀ w ∈ shelf.written (·.subClassOf), ∀ parent ∈ shelf.resolve? w.2,
      parent.index < (shelf.typeId w.1).index := by
    decide
  rintro _ parent ⟨w, mem, rfl, resolved, -⟩
  exact each w mem parent resolved

theorem shelf_sound : shelf.Sound where
  toRulesValid := by decide
  once := by decide
  acyclic := shelf_acyclic
  sentinels := by decide

/-- The two filename rules are one, and the alias in the directory rule is resolved. -/
theorem shelf_faithful :
    ∃ db, ofDescriptor shelf = .ok db ∧
      db.registry.records.toList.map (·.name) =
        sentinelNames ++ ["text/x-note", "x-content/notes"] ∧
      db.globs.rules = [⟨.trailing (Text.utf8 ".note"), false, 80, ⟨5⟩⟩] ∧
      db.magic.signatures =
        [⟨⟨5⟩, 50, .ofForest [.node ⟨0, 0, Text.utf8 "note", none⟩ []]⟩] ∧
      db.layouts.signatures =
        [⟨⟨6⟩, 50, .ofForest [.node ⟨"index", .any, false, false, false, some ⟨5⟩⟩ []]⟩] ∧
      db.roots.roots = [⟨"", "notes", ⟨6⟩⟩] := by
  obtain ⟨loads, faithful⟩ := ofDescriptor_faithful shelf
  obtain ⟨db, loaded⟩ := loads shelf_sound
  obtain ⟨names, registry, -, globs, magic, layouts, roots⟩ := faithful db loaded
  rw [registry, funext Descriptor.lookup?_registry] at layouts
  refine ⟨db, loaded, names.trans ?_, Outcome.eq_singleton_of_perm globs ?_,
    Outcome.eq_singleton_of_perm magic ?_, Outcome.eq_singleton_of_perm layouts ?_,
    (List.singleton_perm.1 roots).symm⟩ <;> decide

/-! ## Documents that load -/

/-- **What a document that loads may have wrong.** Its rules are right one by one, as they
are written, exactly if none of its filename rules has the weight zero. One that has stands
beside another of the same type, pattern and treatment of case, with a proper weight. -/
theorem rulesValid_iff_of_loads (loads : ∃ db, ofDescriptor d = .ok db) :
    (d.RulesValid ↔ ∀ w ∈ d.written (·.globs), w.2.effectiveWeight ≠ 0) ∧
    ∀ w ∈ d.written (·.globs), w.2.effectiveWeight = 0 →
      ∃ w' ∈ d.written (·.globs), w'.1 = w.1 ∧ w'.2.key = w.2.key ∧
        1 ≤ w'.2.effectiveWeight := by
  have able := loads_iff.1 loads
  have keyed : ∀ w ∈ d.written (·.globs), (w.1, w.2.key) ∈ d.globKeys := fun w mem =>
    Descriptor.mem_globKeys.2 ⟨w.2, mem, rfl⟩
  refine ⟨⟨fun valid w mem => ?_, fun weighty => ?_⟩, fun w mem weightless => ?_⟩
  · obtain ⟨⟨low, -⟩, -⟩ := GlobRule.compiles_iff.1 (valid.globs w mem)
    omega
  · refine ⟨able.names, fun w mem => ?_, able.magic, able.layouts, able.rootElements,
      able.superclasses, able.mimetypes⟩
    obtain ⟨⟨-, high⟩, readable⟩ := able.globs _ (keyed w mem)
    have own := Descriptor.effectiveWeight_le_greatestWeight mem
    exact GlobRule.compiles_iff.2
      ⟨⟨Nat.one_le_iff_ne_zero.2 (weighty w mem), own.trans high⟩, readable⟩
  · obtain ⟨rule, written, same, weight⟩ := Descriptor.exists_greatestWeight (keyed w mem)
    refine ⟨(w.1, rule), written, rfl, same, ?_⟩
    rw [weight]
    exact (able.globs _ (keyed w mem)).1.1

/-- Two proper weights for one rule leave nothing wrong. -/
theorem shelf_rulesValid :
    (∃ db, ofDescriptor shelf = .ok db) ∧ shelf.RulesValid := by
  have loads := loads_iff.2 (loadable_of_sound shelf_sound)
  exact ⟨loads, (rulesValid_iff_of_loads loads).1.2 (by decide)⟩

/-- The sentinels, and a type with one filename rule under two weights, one of them zero. -/
def weightless : Descriptor where
  entries := (sentinelNames.map fun name => { name }) ++
    [{ name := "text/x-a", globs := [{ pattern := "*.a" }, { pattern := "*.a", weight := some 0 }] }]

theorem weightless_loadable : Loadable weightless where
  names := by decide
  superclasses := by decide
  acyclic := Descriptor.findCycle?_registry
    (Descriptor.acyclic_of_index_lt fun _ _ ⟨w, mem, _⟩ => nomatch mem)
  sentinels := by decide
  globs := by decide
  magic := by decide
  layouts := by decide
  mimetypes := by decide
  rootElements := by decide
  once := by decide

/-- A weight of zero beside a proper one is not refused. -/
theorem weightless_overlooked :
    ¬ ∀ d : Descriptor, (∃ db, ofDescriptor d = .ok db) → d.RulesValid := by
  intro claimed
  have valid := (claimed weightless (loads_iff.2 weightless_loadable)).globs
  revert valid
  decide

end MediaSniff.Database
