/-
# MediaSniff.Proofs.Database.Answers — every answer is a type of the database

A database stores numbers of types in many places: as superclasses, as sentinels, as owners
of rules, as what a directory rule asks for (`Stored`). They come from three sources, the
place of an entry among the merged ones, a name or an alias that is looked up, and the five
names of the sentinels; each of them gives a number that the registry of a loaded database
has (`index_lt_of_stored`).

Whatever is asked, the answer is one of the numbers that are stored, and none is computed
(`stored_classify` and those that follow it). So every answer has a record.
-/
import MediaSniff.Database.Classify
import MediaSniff.Proofs.Database.Content
import MediaSniff.Proofs.Database.Faithful
import MediaSniff.Proofs.Xml.Roots

set_option autoImplicit false

namespace MediaSniff

/-- A candidate is the type of a rule, or the unknown type. -/
theorem Glob.Index.type_of_mem_candidates {globs : List Glob} {unknown : TypeId} {name : String}
    {c : Candidate} (mem : c ∈ (Index.ofList globs unknown).candidates name) :
    c.type = unknown ∨ ∃ g ∈ globs, g.owner = c.type := by
  by_cases nowhere : globs.filter (·.acceptsName name) = []
  · rw [candidates_of_accepted_nil unknown nowhere, List.mem_singleton] at mem
    exact Or.inl (congrArg Candidate.type mem)
  · obtain ⟨g, accepting, rfl⟩ := List.mem_map.1 ((candidates_perm unknown nowhere).mem_iff.1 mem)
    exact Or.inr ⟨g, (List.mem_filter.1 accepting).1, rfl⟩

/-- The five sentinels. -/
def Sentinels.toList (s : Sentinels) : List TypeId :=
  [s.unknown, s.text, s.empty, s.directory, s.xml]

namespace Database

variable {d : Descriptor} {db : Database} {id : TypeId}

/-! ## Stored numbers -/

/-- The numbers of types that a database stores. -/
inductive Stored (db : Database) : TypeId → Prop
  | superclass {r : TypeRecord} {id : TypeId} (mem : r ∈ db.registry.records)
      (above : id ∈ r.superclasses) : Stored db id
  | sentinel {id : TypeId} (mem : id ∈ db.sentinels.toList) : Stored db id
  | glob {g : Glob} (mem : g ∈ db.globs.rules) : Stored db g.owner
  | noGlob : Stored db db.globs.unknown
  | magic {s : Magic.Signature} (mem : s ∈ db.magic.signatures) : Stored db s.owner
  | magicSentinel {id : TypeId} (mem : id ∈ db.magic.sentinels.toList) : Stored db id
  | root {r : Xml.Root} (mem : r ∈ db.roots.roots) : Stored db r.owner
  | rootSentinel {id : TypeId} (mem : id ∈ db.roots.sentinels.toList) : Stored db id
  | layout {s : Layout.Signature} (mem : s ∈ db.layouts.signatures) : Stored db s.owner
  | layoutSentinel {id : TypeId} (mem : id ∈ db.layouts.sentinels.toList) : Stored db id
  | mimetype {s : Layout.Signature} {c : Cell Layout.Node} {id : TypeId}
      (mem : s ∈ db.layouts.signatures) (cell : c ∈ s.arena.nodes)
      (asks : c.label.mimetype = some id) : Stored db id

/-- All tables have the sentinels of the database. -/
theorem Loading.sentinels_tables (l : Loading d db) :
    db.globs.unknown = db.sentinels.unknown ∧ db.magic.sentinels = db.sentinels ∧
      db.roots.sentinels = db.sentinels ∧ db.layouts.sentinels = db.sentinels := by
  rw [l.globs_eq, l.magic_eq, l.roots_eq, l.layouts_eq]
  exact ⟨rfl, rfl, rfl, rfl⟩

theorem index_lt_of_sentinel (loaded : ofDescriptor d = .ok db)
    (mem : id ∈ db.sentinels.toList) : id.index < db.registry.size := by
  obtain ⟨l⟩ := ofDescriptor_eq_ok.1 loaded
  have able := loads_iff.1 ⟨db, loaded⟩
  rw [l.inventory.sentinels] at mem
  rw [l.inventory.registry, Descriptor.size_registry]
  have named : ∃ name ∈ Descriptor.sentinelNames, d.typeId name = id := by
    rw [← List.mem_map]
    exact mem
  obtain ⟨name, sentinel, rfl⟩ := named
  exact Descriptor.typeId_index_lt (able.sentinels name sentinel)

/-- **Every number that is stored** is that of a type. -/
theorem index_lt_of_stored (loaded : ofDescriptor d = .ok db) (stored : Stored db id) :
    id.index < db.registry.size := by
  obtain ⟨l⟩ := ofDescriptor_eq_ok.1 loaded
  obtain ⟨unknown, magic, roots, layouts⟩ := l.sentinels_tables
  have holds := l.inventory
  have size : db.registry.size = d.typeNames.length := by
    rw [holds.registry, Descriptor.size_registry]
  have declared : ∀ name ∈ d.typeNames, (d.typeId name).index < db.registry.size :=
    fun name mem => size ▸ Descriptor.typeId_index_lt mem
  have resolves : ∀ reference id, d.resolve? reference = some id →
      id.index < db.registry.size :=
    fun _ _ resolved => size ▸ Descriptor.resolve?_index_lt resolved
  cases stored with
  | superclass mem above =>
      rw [holds.registry, Descriptor.registry, Registry.ofList, List.mem_toArray] at mem
      obtain ⟨name, -, rfl⟩ := List.mem_map.1 mem
      obtain ⟨reference, -, resolved, -⟩ := Descriptor.mem_superclasses.1 above
      exact resolves reference id resolved
  | sentinel mem => exact index_lt_of_sentinel loaded mem
  | glob mem =>
      have outcome := holds.globs.mem_iff.2 (List.mem_map_of_mem mem)
      obtain ⟨key, inKeys, done⟩ := List.mem_map.1 outcome
      obtain ⟨rule, written, -⟩ := Descriptor.mem_globKeys.1 inKeys
      have named := Descriptor.fst_mem_typeNames written
      obtain ⟨-, -, shape, -, rfl⟩ := Glob.compile_eq_ok.1 done
      exact declared key.1 named
  | noGlob =>
      rw [unknown]
      exact index_lt_of_sentinel loaded List.mem_cons_self
  | magic mem =>
      have outcome := holds.magic.mem_iff.2 (List.mem_map_of_mem mem)
      obtain ⟨w, written, done⟩ := List.mem_map.1 outcome
      obtain ⟨-, trees, -, rfl⟩ := Magic.Signature.compile_eq_ok.1 done
      exact declared w.1 (Descriptor.fst_mem_typeNames written)
  | magicSentinel mem => exact index_lt_of_sentinel loaded (magic ▸ mem)
  | root mem =>
      obtain ⟨w, written, rfl⟩ := List.mem_map.1 (holds.roots.mem_iff.2 mem)
      exact declared w.1 (Descriptor.fst_mem_typeNames written)
  | rootSentinel mem => exact index_lt_of_sentinel loaded (roots ▸ mem)
  | layout mem =>
      have outcome := holds.layouts.mem_iff.2 (List.mem_map_of_mem mem)
      obtain ⟨w, written, done⟩ := List.mem_map.1 outcome
      obtain ⟨-, trees, -, rfl⟩ := Layout.Signature.compile_eq_ok.1 done
      exact declared w.1 (Descriptor.fst_mem_typeNames written)
  | layoutSentinel mem => exact index_lt_of_sentinel loaded (layouts ▸ mem)
  | mimetype mem cell asks =>
      have outcome := holds.layouts.mem_iff.2 (List.mem_map_of_mem mem)
      obtain ⟨w, written, done⟩ := List.mem_map.1 outcome
      obtain ⟨name, -, resolved⟩ := Layout.Signature.exists_reference_of_mem done cell asks
      rw [holds.registry, Descriptor.lookup?_registry] at resolved
      exact resolves name id resolved

/-! ## Answers -/

/-- A candidate has a number that is stored. -/
theorem Loading.stored_candidate (l : Loading d db) {name : String} {c : Glob.Candidate}
    (mem : c ∈ db.globs.candidates name) : Stored db c.type := by
  rw [l.globs_eq] at mem
  rcases Glob.Index.type_of_mem_candidates mem with same | ⟨g, inRules, same⟩
  · rw [same, ← l.sentinels_tables.1]
    exact .noGlob
  · have filed : g ∈ db.globs.rules := by
      rw [l.globs_eq]
      exact (Glob.Index.rules_ofList _ _).mem_iff.2 inRules
    rw [← same]
    exact .glob filed

theorem Loading.stored_best (l : Loading d db) (name : String) :
    Stored db (db.globs.best name) := by
  obtain ⟨c, mem, same⟩ := Glob.Index.exists_best db.globs name
  rw [← same]
  exact l.stored_candidate mem

theorem stored_matching {data : Bytes} (mem : id ∈ db.magic.matching data) : Stored db id := by
  obtain ⟨s, matching, rfl⟩ := List.mem_map.1 mem
  exact .magic (List.mem_filter.1 matching).1

theorem stored_contentTypes {data : Bytes} (mem : id ∈ db.contentTypes data) : Stored db id := by
  rw [contentTypes] at mem
  split at mem
  · split at mem
    · rw [List.mem_singleton.1 mem]
      exact .sentinel (by simp [Sentinels.toList])
    · cases mem
  · exact stored_matching mem

theorem stored_classifyBytes (db : Database) (data : Bytes) :
    Stored db (db.classifyBytes data) := by
  have sentinel : ∀ id ∈ db.magic.sentinels.toList, Stored db id := fun _ => .magicSentinel
  simp only [Sentinels.toList, List.forall_mem_cons] at sentinel
  rw [classifyBytes, Magic.Table.classify_eq]
  split
  · exact sentinel.2.2.1
  · cases matching : db.magic.matching data with
    | cons first rest =>
        exact stored_matching (matching ▸ List.mem_cons_self)
    | nil =>
        show Stored db (if _ then _ else _)
        split
        · exact sentinel.2.1
        · exact sentinel.1

theorem Loading.stored_settle (l : Loading d db) (name : String) (data : Bytes)
    (preference : Preference) :
    Stored db (db.settle (db.globs.candidates name) (db.globs.best name) data preference) := by
  rw [settle]
  split
  · split
    · exact .sentinel (by simp [Sentinels.toList])
    · exact l.stored_best name
  · dsimp only
    split
    · rename_i agreed found
      obtain ⟨m, -, refined⟩ := List.exists_of_findSome?_eq_some found
      obtain ⟨c, first, rfl⟩ := Option.map_eq_some_iff.1 refined
      exact l.stored_candidate (List.mem_of_find?_eq_some first)
    · split
      · rename_i first rest content
        split
        · exact stored_contentTypes (content ▸ List.mem_cons_self)
        · exact l.stored_best name
      · exact l.stored_best name

/-- The answer to a name and a document. -/
theorem Loading.stored_classify (l : Loading d db) (data : Bytes) (name : String)
    (limit : Option Nat) (preference : Preference) :
    Stored db (db.classify data name limit preference) := by
  by_cases known : db.globs.best name = db.sentinels.unknown
  · rw [classify_of_unknown known]
    exact stored_classifyBytes db _
  · rw [classify_of_known known]
    exact l.stored_settle name _ preference

/-- Markup changes what is known of a document from one stored number to another. -/
theorem stored_ofMarkups {known : TypeId} (stored : Stored db known)
    (markups : List Xml.Markup) : Stored db (db.roots.ofMarkups known markups) := by
  have xml : Stored db db.roots.sentinels.xml := .rootSentinel (by simp [Sentinels.toList])
  rcases db.roots.ofMarkups_cases known markups with ⟨r, mem, found⟩ | same | same
  · rw [found]
    exact .root mem
  · rwa [same]
  · rwa [same]

theorem stored_classifyXml (db : Database) (data : Bytes) (limit : Option Nat) :
    Stored db (db.classifyXml data limit) :=
  stored_ofMarkups (.rootSentinel (by simp [Sentinels.toList])) _

theorem stored_classifySnapshot? {snapshot : Layout.Snapshot}
    (found : db.classifySnapshot? snapshot = some id) : Stored db id := by
  obtain ⟨s, first, rfl⟩ := Option.map_eq_some_iff.1 found
  exact .layout (List.mem_of_find?_eq_some first)

/-- **Every answer is a type of the database.** All numbers that a loaded database stores are
those of types, and so each answer, to whichever question, has a record. -/
theorem answers_known (loaded : ofDescriptor d = .ok db) :
    (∀ id, Stored db id → id.index < db.registry.size) ∧
    ∀ (data : Bytes) (name : String) (limit : Option Nat) (preference : Preference)
      (snapshot : Layout.Snapshot),
      (db.registry.get? (db.classify data name limit preference)).isSome ∧
      (db.registry.get? (db.classifyBytes data)).isSome ∧
      (db.registry.get? (db.classifyName name)).isSome ∧
      (db.registry.get? (db.classifyXml data limit)).isSome ∧
      ∀ id, db.classifySnapshot? snapshot = some id → (db.registry.get? id).isSome := by
  obtain ⟨l⟩ := ofDescriptor_eq_ok.1 loaded
  have known : ∀ id, Stored db id → (db.registry.get? id).isSome := fun _ stored =>
    Registry.isSome_get?_iff.2 (index_lt_of_stored loaded stored)
  refine ⟨fun _ => index_lt_of_stored loaded, fun data name limit preference snapshot => ?_⟩
  exact ⟨known _ (l.stored_classify data name limit preference),
    known _ (stored_classifyBytes db data), known _ (l.stored_best name),
    known _ (stored_classifyXml db data limit), fun id found =>
      known id (stored_classifySnapshot? found)⟩

/-- Three answers, each with a record. -/
theorem shelf_answers :
    ∃ db, ofDescriptor shelf = .ok db ∧
      (db.registry.get? (db.classify (Text.utf8 "note") "a.note" none .default)).isSome ∧
      (db.registry.get? (db.classify (Text.utf8 "<notes>") "" (some 4) .magic)).isSome ∧
      (db.registry.get? (db.classifyXml (Text.utf8 "<notes>") none)).isSome := by
  obtain ⟨db, loaded⟩ := loads_iff.2 (loadable_of_sound shelf_sound)
  have known := (answers_known loaded).2
  exact ⟨db, loaded, (known _ _ _ _ {}).1, (known _ _ _ _ {}).1, (known _ "" _ .default {}).2.2.2.1⟩

end Database

end MediaSniff
