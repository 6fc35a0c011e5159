/-
# MediaSniff.Proofs.Descriptor.Types — all that is said about each type

A document lists entries, and several of them may be about one type. What it says can be
read in two ways: entry by entry, as it is written (`written`), or type by type, as it is
merged (`about`). The types stand in the order in which their names first appear, and the
place of a name there is the number of the type (`typeNames`, `typeId`).

`merge_eq_ok` says that merging gives the second reading, and `flatMap_said_perm` that the
two readings hold the same: type by type nothing is lost, and nothing is said twice.
-/
import MediaSniff.Descriptor.Merge
import MediaSniff.Proofs.Grouping
import MediaSniff.TypeId

set_option autoImplicit false

namespace MediaSniff.Descriptor

variable {ρ : Type} (d : Descriptor) (kind : Entry → List ρ)

/-! ## Two readings of a document -/

/-- The names of the types that a document is about, each once. -/
def typeNames : List String := (d.entries.map (·.name)).eraseDups

/-- The number of the type of a name. -/
def typeId (name : String) : TypeId := ⟨d.typeNames.idxOf name⟩

/-- All that a document says of one kind, each with the name of the type it is said of. -/
def written : List (String × ρ) :=
  d.entries.flatMap fun e => (kind e).map fun rule => (e.name, rule)

/-- All that a document says of one kind about the type of a name. -/
def said (name : String) : List ρ := (d.entries.filter fun e => e.name == name).flatMap kind

/-- The one entry for all that a document says about the type of a name. -/
def about (name : String) : Entry :=
  .combine name (d.entries.filter fun e => e.name == name)

variable {d kind}

/-! ## Names and numbers -/

theorem nodup_typeNames : d.typeNames.Nodup := nodup_eraseDups _

theorem mem_typeNames {name : String} : name ∈ d.typeNames ↔ ∃ e ∈ d.entries, e.name = name := by
  rw [typeNames, List.mem_eraseDups, List.mem_map]

theorem name_mem_typeNames {e : Entry} (mem : e ∈ d.entries) : e.name ∈ d.typeNames :=
  mem_typeNames.2 ⟨e, mem, rfl⟩

theorem typeId_index_lt {name : String} (mem : name ∈ d.typeNames) :
    (d.typeId name).index < d.typeNames.length :=
  List.idxOf_lt_length_of_mem mem

theorem typeId_inj {name name' : String} (mem : name ∈ d.typeNames) :
    d.typeId name = d.typeId name' ↔ name = name' := by
  rw [typeId, typeId, TypeId.mk.injEq]
  exact List.idxOf_inj mem

theorem getElem?_typeId {name : String} (mem : name ∈ d.typeNames) :
    d.typeNames[(d.typeId name).index]? = some name := by
  rw [List.getElem?_eq_getElem (typeId_index_lt mem)]
  exact congrArg some (List.getElem_idxOf _)

/-! ## Said and written -/

theorem mem_written {name : String} {rule : ρ} :
    (name, rule) ∈ d.written kind ↔ ∃ e ∈ d.entries, e.name = name ∧ rule ∈ kind e := by
  simp only [written, List.mem_flatMap, List.mem_map, Prod.mk.injEq]
  constructor
  · rintro ⟨e, mem, rule, said, rfl, rfl⟩
    exact ⟨e, mem, rfl, said⟩
  · rintro ⟨e, mem, rfl, said⟩
    exact ⟨e, mem, rule, said, rfl, rfl⟩

theorem fst_mem_typeNames {w : String × ρ} (mem : w ∈ d.written kind) : w.1 ∈ d.typeNames := by
  obtain ⟨e, inDoc, named, -⟩ := mem_written.1 mem
  exact named ▸ name_mem_typeNames inDoc

theorem filter_written (name : String) :
    ((d.written kind).filter fun w => w.1 = name) = (d.said kind name).map (name, ·) := by
  rw [written, said]
  induction d.entries with
  | nil => rfl
  | cons e entries ih =>
      rw [List.flatMap_cons, List.filter_append, ih, List.filter_map]
      by_cases same : e.name = name
      · subst same
        simp [Function.comp_def]
      · simp [Function.comp_def, same]

theorem mem_said {name : String} {rule : ρ} :
    rule ∈ d.said kind name ↔ (name, rule) ∈ d.written kind := by
  rw [mem_written, said, List.mem_flatMap]
  simp only [List.mem_filter, beq_iff_eq, and_assoc]

/-- **Type by type nothing is lost and nothing is said twice.** -/
theorem flatMap_said_perm (d : Descriptor) (kind : Entry → List ρ) :
    (d.typeNames.flatMap fun name => (d.said kind name).map (name, ·)).Perm
      (d.written kind) := by
  simp only [← filter_written]
  exact flatMap_filter_perm _ nodup_typeNames fun _ => fst_mem_typeNames

/-! ## Merging -/

section About

variable (d) (name : String)

@[simp] theorem about_name : (d.about name).name = name := rfl

@[simp] theorem about_aliases :
    (d.about name).aliases = distinct (d.said (·.aliases) name) := rfl

@[simp] theorem about_subClassOf :
    (d.about name).subClassOf = distinct (d.said (·.subClassOf) name) := rfl

@[simp] theorem about_globs :
    (d.about name).globs = (d.said (·.globs) name).foldl addGlob [] := rfl

@[simp] theorem about_magic : (d.about name).magic = d.said (·.magic) name := rfl

@[simp] theorem about_layouts : (d.about name).layouts = d.said (·.layouts) name := rfl

@[simp] theorem about_rootElements :
    (d.about name).rootElements = d.said (·.rootElements) name := rfl

end About

/-- **Merging** refuses a name that is no media type, and else leaves what is said about
each type. -/
theorem merge_eq_ok {merged : List Entry} :
    merge d.entries = .ok merged ↔
      (∀ e ∈ d.entries, isMediaType e.name = true) ∧ merged = d.typeNames.map d.about := by
  rw [merge]
  cases faulty : d.entries.find? fun e => !isMediaType e.name with
  | some e =>
      refine iff_of_false nofun fun valid => ?_
      have here := valid.1 e (List.mem_of_find?_eq_some faulty)
      simpa [here] using List.find?_some faulty
  | none =>
      have valid : ∀ e ∈ d.entries, isMediaType e.name = true := by
        simpa using List.find?_eq_none.1 faulty
      rw [Except.ok.injEq, groups_eq, List.map_map, eq_comm]
      exact (and_iff_right valid).symm

end MediaSniff.Descriptor
