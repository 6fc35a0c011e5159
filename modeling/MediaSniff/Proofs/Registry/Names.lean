/-
# MediaSniff.Proofs.Registry.Names — whom a name goes to

A type can be referred to by its name and by its aliases, and aliases may clash: with the name
of another type, or with its aliases. The table of names settles each clash in one way
(`NamesSettled`). The type of that name comes first, and of several types that claim an alias
the one with the smallest number. The registry of records is settled if no two of them have one
name (`namesSettled_ofList`).
-/
import MediaSniff.Proofs.Registry.Lookup

set_option autoImplicit false

namespace MediaSniff.Registry

variable {records : List TypeRecord} {id : TypeId} {name : String}

/-- The type of a number has a name. -/
def IsNamed (r : Registry) (id : TypeId) (name : String) : Prop :=
  ∃ own, r.get? id = some own ∧ own.name = name

/-- The type of a number has an alias. -/
def Claims (r : Registry) (id : TypeId) (name : String) : Prop :=
  ∃ own, r.get? id = some own ∧ name ∈ own.aliases

/-- Every name goes to one type. -/
structure NamesSettled (r : Registry) : Prop where
  /-- No two types have one name. -/
  once : (r.records.toList.map (·.name)).Nodup
  /-- A type has its name, whoever claims it as an alias. -/
  named : ∀ {id : TypeId} {name : String}, r.IsNamed id name → r.lookup? name = some id
  /-- An alias that is no name goes to the first type that claims it. -/
  claimed : ∀ {id : TypeId} {name : String}, r.Claims id name → (∀ id', ¬ r.IsNamed id' name) →
    ∃ first, r.lookup? name = some first ∧ r.Claims first name ∧
      ∀ id', r.Claims id' name → first.index ≤ id'.index
  /-- Nothing else goes to a type. -/
  unclaimed : ∀ {name : String}, (∀ id, ¬ r.IsNamed id name) → (∀ id, ¬ r.Claims id name) →
    r.lookup? name = none

/-! ## Records and their numbers -/

theorem get?_ofList : (ofList records).get? id = records[id.index]? := by
  rw [get?, ofList, List.getElem?_toArray]

theorem mem_numbered {own : TypeRecord} :
    (id, own) ∈ numbered records ↔ (ofList records).get? id = some own := by
  rw [get?_ofList, numbered, List.mem_map]
  constructor
  · rintro ⟨⟨own, i⟩, mem, same⟩
    cases same
    simpa [List.mem_zipIdx_iff_getElem?] using mem
  · intro found
    exact ⟨(own, id.index), by simpa [List.mem_zipIdx_iff_getElem?] using found, rfl⟩

theorem getElem?_numbered (i : Nat) :
    (numbered records)[i]? = records[i]?.map fun own => (⟨i⟩, own) := by
  simp [numbered, Function.comp_def]

theorem isNamed_iff :
    (ofList records).IsNamed id name ↔ (records.map (·.name))[id.index]? = some name := by
  rw [IsNamed, get?_ofList, List.getElem?_map, Option.map_eq_some_iff]

/-- A name tells its type if no two records have one name. -/
theorem eq_of_isNamed (once : (records.map (·.name)).Nodup) {id' : TypeId}
    (here : (ofList records).IsNamed id name) (there : (ofList records).IsNamed id' name) :
    id = id' := by
  rw [isNamed_iff] at here there
  have same : id.index = id'.index :=
    (List.getElem?_inj (List.getElem?_eq_some_iff.1 here).1 once).1 (here.trans there.symm)
  cases id
  cases id'
  exact congrArg TypeId.mk same

/-! ## The table of names -/

/-- A name that is one goes to its type. -/
theorem lookup?_of_isNamed (once : (records.map (·.name)).Nodup)
    (here : (ofList records).IsNamed id name) : (ofList records).lookup? name = some id := by
  obtain ⟨own, found, named⟩ := here
  have present : ((numbered records).reverse.find? fun e => e.2.name == name).isSome := by
    rw [List.find?_isSome]
    exact ⟨(id, own), List.mem_reverse.2 (mem_numbered.2 found), by simpa using named⟩
  obtain ⟨⟨id', own'⟩, last⟩ := Option.isSome_iff_exists.1 present
  have found' := mem_numbered.1 (List.mem_reverse.1 (List.mem_of_find?_eq_some last))
  have named' : own'.name = name := by simpa using List.find?_some last
  rw [lookup?_ofList, last, Option.some_or, Option.map_some,
    eq_of_isNamed once ⟨own', found', named'⟩ ⟨own, found, named⟩]

/-- Only aliases are looked at where no type has the name. -/
theorem lookup?_of_unnamed (unnamed : ∀ id, ¬ (ofList records).IsNamed id name) :
    (ofList records).lookup? name =
      ((numbered records).find? fun e => e.2.aliases.contains name).map (·.1) := by
  have nowhere : ((numbered records).reverse.find? fun e => e.2.name == name) = none := by
    rw [List.find?_eq_none]
    rintro ⟨id, own⟩ mem named
    exact unnamed id ⟨own, mem_numbered.1 (List.mem_reverse.1 mem), eq_of_beq named⟩
  rw [lookup?_ofList, nowhere, Option.none_or]

/-- An alias that is no name goes to the first type that claims it. -/
theorem exists_lookup?_of_claims (unnamed : ∀ id, ¬ (ofList records).IsNamed id name)
    (here : (ofList records).Claims id name) :
    ∃ first, (ofList records).lookup? name = some first ∧ (ofList records).Claims first name ∧
      ∀ id', (ofList records).Claims id' name → first.index ≤ id'.index := by
  obtain ⟨own, found, claims⟩ := here
  have present : ((numbered records).find? fun e => e.2.aliases.contains name).isSome := by
    rw [List.find?_isSome]
    exact ⟨(id, own), mem_numbered.2 found, by simpa using claims⟩
  obtain ⟨⟨first, own'⟩, foremost⟩ := Option.isSome_iff_exists.1 present
  rw [lookup?_of_unnamed unnamed, foremost, Option.map_some]
  obtain ⟨claims', i, inside, at_i, before⟩ := List.find?_eq_some_iff_getElem.1 foremost
  have place : first = ⟨i⟩ := by
    have here := List.getElem?_eq_some_iff.2 ⟨inside, at_i⟩
    rw [getElem?_numbered, Option.map_eq_some_iff] at here
    obtain ⟨_, -, same⟩ := here
    exact (congrArg Prod.fst same).symm
  subst place
  refine ⟨⟨i⟩, rfl, ⟨own', mem_numbered.1 (List.mem_of_find?_eq_some foremost), ?_⟩, ?_⟩
  · simpa using claims'
  · -- A type with a smaller number would have been found before.
    rintro id' ⟨own', found', claims'⟩
    refine Nat.not_lt.1 fun less => ?_
    have skipped := before id'.index less
    have there : (numbered records)[id'.index]? = some (id', own') := by
      rw [getElem?_numbered, ← get?_ofList, found', Option.map_some]
    obtain ⟨_, at_id'⟩ := List.getElem?_eq_some_iff.1 there
    simp [at_id', claims'] at skipped

/-- **The table of names is settled** if no two records have one name. -/
theorem namesSettled_ofList (once : (records.map (·.name)).Nodup) :
    (ofList records).NamesSettled where
  once := by rwa [ofList, List.toList_toArray]
  named := lookup?_of_isNamed once
  claimed here unnamed := exists_lookup?_of_claims unnamed here
  unclaimed := by
    intro name unnamed unclaimed
    rw [lookup?_of_unnamed unnamed, Option.map_eq_none_iff, List.find?_eq_none]
    rintro ⟨id, own⟩ mem claims
    exact unclaimed id ⟨own, mem_numbered.1 mem, by simpa using claims⟩

end MediaSniff.Registry
