/-
# MediaSniff.Proofs.Database.Names — names, aliases and superclasses of a loaded database

A document refers to types by their names and by aliases, and entries anywhere in it may add to
both. In a database that loads each reference has come to one type. Names are told from aliases,
and clashing aliases from each other, in one way (`Registry.NamesSettled`), and the superclasses
of a type are the types of the references that the entries about it make, the type itself
excepted (`Recorded`).

The superclasses are looked up while the registry is made, in a table of names made for the
purpose. They are stated here in terms of the table that the database keeps.
-/
import MediaSniff.Proofs.Database.Faithful
import MediaSniff.Proofs.Registry.Names

set_option autoImplicit false

namespace MediaSniff.Database

open Descriptor (sentinelNames)

variable {d : Descriptor} {db : Database}

/-- A record has what the document says about its type. -/
structure Recorded (d : Descriptor) (r : Registry) (id : TypeId) (own : TypeRecord) : Prop where
  aliases : ∀ name, name ∈ own.aliases ↔ (own.name, name) ∈ d.written (·.aliases)
  /-- A superclass is another type, and some entry refers to it. -/
  referred : ∀ parent ∈ own.superclasses, parent ≠ id ∧
    ∃ reference, (own.name, reference) ∈ d.written (·.subClassOf) ∧
      r.lookup? reference = some parent
  /-- Every reference is to the type itself or to a superclass. -/
  resolved : ∀ reference, (own.name, reference) ∈ d.written (·.subClassOf) →
    ∃ parent, r.lookup? reference = some parent ∧ (parent = id ∨ parent ∈ own.superclasses)
  once : own.superclasses.Nodup

theorem namesSettled_registry (d : Descriptor) : d.registry.NamesSettled := by
  apply Registry.namesSettled_ofList
  have names : (d.typeNames.map d.record).map (·.name) = d.typeNames := by
    rw [List.map_map]
    exact List.map_id' _
  rw [names]
  exact Descriptor.nodup_typeNames

/-- The records of a document are as it says, so long as all references resolve. -/
theorem recorded_registry
    (resolves : ∀ w ∈ d.written (·.subClassOf), (d.resolve? w.2).isSome) {id : TypeId}
    {own : TypeRecord} (found : d.registry.get? id = some own) :
    Recorded d d.registry id own := by
  obtain ⟨name, -, rfl, rfl⟩ := Descriptor.exists_name_of_get? found
  constructor
  case aliases =>
    intro a
    exact mem_distinct.trans Descriptor.mem_said
  case referred =>
    intro parent mem
    obtain ⟨reference, said, resolved, other⟩ := Descriptor.mem_superclasses.1 mem
    exact ⟨other, reference, said, (Descriptor.lookup?_registry reference).trans resolved⟩
  case resolved =>
    intro reference said
    obtain ⟨parent, resolved⟩ := Option.isSome_iff_exists.1 (resolves _ said)
    refine ⟨parent, (Descriptor.lookup?_registry reference).trans resolved, ?_⟩
    by_cases own : parent = d.typeId name
    · exact Or.inl own
    · exact Or.inr (Descriptor.mem_superclasses.2 ⟨reference, said, resolved, own⟩)
  case once =>
    exact nodup_eraseDups _

/-- **Names resolve alike in every loaded database.** No two types have one name, and each is
found under its own. An alias goes to the type of that name, or else to the first type that
claims it; nothing else is found. And the superclasses of each type are, without repetition,
the types that the entries about it refer to, except for the type itself. -/
theorem names_resolve (loaded : ofDescriptor d = .ok db) :
    db.registry.NamesSettled ∧
    ∀ id own, db.registry.get? id = some own → Recorded d db.registry id own := by
  have able := loads_iff.1 ⟨db, loaded⟩
  obtain ⟨l⟩ := ofDescriptor_eq_ok.1 loaded
  rw [l.inventory.registry]
  exact ⟨namesSettled_registry d, fun id own found => recorded_registry able.superclasses found⟩

/-- Two types that claim one alias. The second claims the name of the first besides, and refers
to itself, to the first and to plain text, each more than once. -/
def rivals : Descriptor where
  entries := (sentinelNames.map fun name => { name }) ++
    [{ name := "text/x-b", aliases := ["text/ab", "text/b"] },
     { name := "text/x-a", aliases := ["text/ab", "text/x-b", "text/a"]
       subClassOf := ["text/a", "text/b", Sentinels.textName] },
     { name := "text/x-a", subClassOf := [Sentinels.textName, "text/ab", "text/x-a"] }]

theorem rivals_acyclic : rivals.Acyclic := by
  apply Descriptor.acyclic_of_index_lt
  have each : ∀ w ∈ rivals.written (·.subClassOf), ∀ parent ∈ rivals.resolve? w.2,
      parent = rivals.typeId w.1 ∨ parent.index < (rivals.typeId w.1).index := by
    decide
  rintro _ parent ⟨w, mem, rfl, resolved, other⟩
  exact (each w mem parent resolved).resolve_left other

theorem rivals_sound : rivals.Sound where
  toRulesValid := by decide
  once := by decide
  acyclic := rivals_acyclic
  sentinels := by decide

theorem rivals_superclasses : rivals.superclasses "text/x-a" = [⟨5⟩, ⟨1⟩] := by
  rw [Descriptor.superclasses, Descriptor.about_subClassOf, distinct_eq_eraseDups]
  decide

/-- The first has the alias that both claim, and its own name. -/
theorem rivals_resolve :
    ∃ db, ofDescriptor rivals = .ok db ∧ db.registry.NamesSettled ∧
      db.registry.lookup? "text/ab" = some ⟨5⟩ ∧ db.registry.lookup? "text/x-b" = some ⟨5⟩ ∧
      ∃ own, db.registry.get? ⟨6⟩ = some own ∧ own.superclasses = [⟨5⟩, ⟨1⟩] ∧
        Recorded rivals db.registry ⟨6⟩ own := by
  obtain ⟨db, loaded⟩ := loads_iff.2 (loadable_of_sound rivals_sound)
  obtain ⟨settled, recorded⟩ := names_resolve loaded
  have registry : db.registry = rivals.registry :=
    (ofDescriptor_eq_ok.1 loaded).some.inventory.registry
  have own : db.registry.get? ⟨6⟩ = some (rivals.record "text/x-a") := by
    rw [registry, Descriptor.get?_registry]
    rfl
  have lookup : ∀ name, db.registry.lookup? name = rivals.resolve? name :=
    registry ▸ Descriptor.lookup?_registry
  exact ⟨db, loaded, settled, (lookup _).trans (by decide), (lookup _).trans (by decide), _, own,
    rivals_superclasses, recorded _ _ own⟩

end MediaSniff.Database
