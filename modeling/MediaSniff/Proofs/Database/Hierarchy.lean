/-
# MediaSniff.Proofs.Database.Hierarchy — cycles are refused, and nothing else is for them

Of a loaded database, to be a type or below it is a partial order. Where a document is refused
for a cycle, there is one through the type that is named. And a document is refused for a
cycle exactly if there is one and all before it is right: the names of its types, and the
references to superclasses (`subclassCycle_iff`).

A cycle is looked for at one step of compiling only. The steps before it and after it may
refuse a document too, but for other causes (`ofDescriptor_eq_subclassCycle`).
-/
import MediaSniff.Proofs.Database.Faithful
import MediaSniff.Proofs.Registry.Acyclic

set_option autoImplicit false

namespace MediaSniff

open Relation (ReflTransGen TransGen)
open Outcome (Avoids)

/-- The cause is a cycle of superclasses. -/
def LoadError.IsCycle : LoadError → Prop
  | .subclassCycle _ => True
  | _ => False

theorem LoadError.isCycle_subclassCycle (name : String) : IsCycle (.subclassCycle name) := trivial

/-! ## Steps that look for no cycle -/

namespace Layout

open Descriptor (LayoutTest)

variable (type : String) (resolve : String → Option TypeId)

theorem compileNode_avoids (test : LayoutTest) :
    Avoids LoadError.IsCycle (compileNode type resolve test) := by
  have elim : ∀ {α : Type} (o : Option α) {cause : LoadError}, ¬ cause.IsCycle →
      Avoids LoadError.IsCycle (o.elim (.error cause) .ok) := by
    intro α o cause other
    cases o with
    | none => exact .error other
    | some a => exact .ok a
  rw [compileNode]
  dsimp only
  split
  · exact .error not_false
  · refine (elim _ id).bind fun kind => Avoids.bind ?_ fun _ => .ok _
    cases test.mimetype.filter (!·.isEmpty) with
    | none => exact .ok none
    | some name => exact (elim _ id).bind fun _ => .ok _

mutual

theorem compileBelow_avoids : ∀ test : LayoutTest,
    Avoids LoadError.IsCycle (compileBelow type resolve test)
  | ⟨_, _, _, _, _, _, children⟩ =>
      (Avoids.mapM (compileNode_avoids type resolve)).bind fun _ =>
        (compileEachBelow_avoids children).bind fun _ => .ok _

theorem compileEachBelow_avoids : ∀ tests : List LayoutTest,
    Avoids LoadError.IsCycle (compileEachBelow type resolve tests)
  | [] => .ok []
  | test :: tests =>
      (compileBelow_avoids test).bind fun _ => (compileEachBelow_avoids tests).bind fun _ => .ok _

end

theorem Signature.compile_avoids (owner : TypeId) (rule : Descriptor.LayoutRule) :
    Avoids LoadError.IsCycle (compile type owner rule resolve) := by
  have forest : Avoids LoadError.IsCycle (compileForest type resolve rule.tests) :=
    (Avoids.mapM (compileNode_avoids type resolve)).bind fun _ =>
      (compileEachBelow_avoids type resolve rule.tests).bind fun _ => .ok _
  rw [compile]
  dsimp only
  split
  · exact .error not_false
  · exact forest.bind fun _ => .ok _

end Layout

namespace Database

open Descriptor (Entry RootElement GlobRule MagicRule)

theorem compileGlob_avoids (type : String) (id : TypeId) (rule : GlobRule) :
    Avoids LoadError.IsCycle (compileGlob type id rule) := by
  unfold compileGlob
  split
  · exact .ok _
  · exact .error not_false
  · exact .error not_false

theorem compileMagic_avoids (type : String) (id : TypeId) (rule : MagicRule) :
    Avoids LoadError.IsCycle (compileMagic type id rule) := by
  unfold compileMagic
  split
  · exact .ok _
  · exact .error not_false
  · exact .error not_false

theorem compileRoots_avoids (type : String) (id : TypeId) (registered : Std.HashSet RootElement)
    (roots : List RootElement) :
    Avoids LoadError.IsCycle (compileRoots type id registered roots) := by
  induction roots generalizing registered with
  | nil => exact .ok []
  | cons root roots ih =>
      rw [compileRoots]
      split
      · exact .error not_false
      · split
        · exact .error not_false
        · split
          · exact .error not_false
          · exact (ih _).bind fun _ => .ok _

theorem compileEntry_avoids (registry : Registry) (id : TypeId)
    (registered : Std.HashSet RootElement) (e : Entry) :
    Avoids LoadError.IsCycle (compileEntry registry id registered e) :=
  (Avoids.mapM (compileGlob_avoids e.name id)).bind fun _ =>
    (Avoids.mapM (compileMagic_avoids e.name id)).bind fun _ =>
      (compileRoots_avoids e.name id registered e.rootElements).bind fun _ =>
        (Avoids.mapM fun rule => Layout.Signature.compile_avoids e.name registry.lookup? id
          rule).bind fun _ => .ok _

theorem compileEntries_avoids (registry : Registry) (next : Nat)
    (registered : Std.HashSet RootElement) (entries : List Entry) :
    Avoids LoadError.IsCycle (compileEntries registry next registered entries) := by
  induction entries generalizing next registered with
  | nil => exact .ok _
  | cons e entries ih =>
      exact (compileEntry_avoids registry ⟨next⟩ registered e).bind fun _ =>
        (ih _ _).bind fun _ => .ok _

theorem sentinelsOf_avoids (registry : Registry) :
    Avoids LoadError.IsCycle (sentinelsOf registry) := by
  have one : ∀ name, Avoids LoadError.IsCycle (sentinel registry name) := by
    intro name
    unfold sentinel
    split
    · exact .ok _
    · exact .error not_false
  exact (one _).bind fun _ => (one _).bind fun _ => (one _).bind fun _ => (one _).bind fun _ =>
    (one _).bind fun _ => .ok _

theorem merge_avoids (entries : List Entry) :
    Avoids LoadError.IsCycle (Descriptor.merge entries) := by
  unfold Descriptor.merge
  split
  · exact .error not_false
  · exact .ok _

theorem superclassesOf_avoids (names : Registry) (type : String) (id : TypeId)
    (known : List TypeId) (parents : List String) :
    Avoids LoadError.IsCycle (superclassesOf names type id known parents) := by
  induction parents generalizing known with
  | nil => exact .ok known
  | cons parent parents ih =>
      rw [superclassesOf]
      split
      · exact .error not_false
      · exact ih _

theorem recordsOf_avoids (names : Registry) (next : Nat) (entries : List Entry) :
    Avoids LoadError.IsCycle (recordsOf names next entries) := by
  induction entries generalizing next with
  | nil => exact .ok []
  | cons e entries ih =>
      exact (superclassesOf_avoids names e.name ⟨next⟩ [] e.subClassOf).bind fun _ =>
        (ih _).bind fun _ => .ok _

/-! ## Documents with cycles -/

variable {d : Descriptor} {db : Database} {name : String}

theorem registryOf_eq_subclassCycle {merged : List Entry} :
    registryOf merged = .error (.subclassCycle name) ↔
      ∃ records, recordsOf (.ofList (merged.map recordOf)) 0 merged = .ok records ∧
        ∃ id, (Registry.ofList records).findCycle? = some id ∧
          (Registry.ofList records).nameOf id = name := by
  rw [registryOf, Outcome.bind_eq_error,
    or_iff_right ((recordsOf_avoids _ _ _).ne (LoadError.isCycle_subclassCycle name))]
  refine exists_congr fun records => and_congr_right fun _ => ?_
  dsimp only
  cases (Registry.ofList records).findCycle? with
  | none => simp only [reduceCtorEq, false_and, exists_false]
  | some id => simp only [Except.error.injEq, LoadError.subclassCycle.injEq, Option.some.injEq,
      exists_eq_left']

/-- **A document is refused for a cycle** by the step that looks for one. -/
theorem ofDescriptor_eq_subclassCycle :
    ofDescriptor d = .error (.subclassCycle name) ↔
      ∃ merged, Descriptor.merge d.entries = .ok merged ∧
        registryOf merged = .error (.subclassCycle name) := by
  rw [ofDescriptor, Outcome.bind_eq_error,
    or_iff_right ((merge_avoids _).ne (LoadError.isCycle_subclassCycle name))]
  refine exists_congr fun merged => and_congr_right fun _ => ?_
  have later : ∀ registry, Avoids LoadError.IsCycle (do
      let sentinels ← sentinelsOf registry
      let rules ← compileEntries registry 0 ∅ merged
      return ({
        registry, sentinels
        globs := .ofList rules.globs sentinels.unknown
        magic := .ofList rules.magic sentinels
        roots := .ofList rules.roots sentinels
        layouts := .ofList rules.layouts sentinels } : Database)) := fun registry =>
    (sentinelsOf_avoids registry).bind fun _ =>
      (compileEntries_avoids registry 0 ∅ merged).bind fun _ => .ok _
  rw [Outcome.bind_eq_error]
  refine or_iff_left ?_
  rintro ⟨registry, -, failed⟩
  exact (later registry).ne (LoadError.isCycle_subclassCycle name) failed

/-- Read off the document: its names are valid, its references resolve, and the search
reports the type of that name. -/
theorem ofDescriptor_eq_subclassCycle_iff :
    ofDescriptor d = .error (.subclassCycle name) ↔
      (∀ e ∈ d.entries, Descriptor.isMediaType e.name = true) ∧
      (∀ w ∈ d.written (·.subClassOf), (d.resolve? w.2).isSome) ∧
      ∃ id, d.registry.findCycle? = some id ∧ d.registry.nameOf id = name := by
  simp only [ofDescriptor_eq_subclassCycle, Descriptor.merge_eq_ok]
  constructor
  · rintro ⟨_, ⟨names, rfl⟩, failed⟩
    obtain ⟨records, compiled, found⟩ := registryOf_eq_subclassCycle.1 failed
    obtain ⟨resolves, rfl⟩ := Descriptor.recordsOf_about_eq_ok.1 compiled
    exact ⟨names, resolves, found⟩
  · rintro ⟨names, resolves, found⟩
    refine ⟨_, ⟨names, rfl⟩, registryOf_eq_subclassCycle.2 ⟨_, ?_, found⟩⟩
    exact Descriptor.recordsOf_about_eq_ok.2 ⟨resolves, rfl⟩

theorem findCycle?_registry_iff : d.registry.findCycle? = none ↔ d.Acyclic := by
  refine ⟨fun none id above => ?_, Descriptor.findCycle?_registry⟩
  refine Registry.findCycle?_eq_none_iff.1 none id ?_
  exact TransGen.mono (fun _ _ => Descriptor.edge_registry.2) _ _ above

/-- **Which documents are refused for a cycle.** -/
theorem subclassCycle_iff :
    (∃ name, ofDescriptor d = .error (.subclassCycle name)) ↔
      (∀ e ∈ d.entries, Descriptor.isMediaType e.name = true) ∧
      (∀ w ∈ d.written (·.subClassOf), (d.resolve? w.2).isSome) ∧ ¬ d.Acyclic := by
  rw [← findCycle?_registry_iff, ← ne_eq, Option.ne_none_iff_exists']
  simp only [ofDescriptor_eq_subclassCycle_iff]
  constructor
  · rintro ⟨name, names, resolves, id, found, -⟩
    exact ⟨names, resolves, id, found⟩
  · rintro ⟨names, resolves, id, found⟩
    exact ⟨_, names, resolves, id, found, rfl⟩

/-- The cycle goes through the type that is named. -/
theorem transGen_below_of_subclassCycle (failed : ofDescriptor d = .error (.subclassCycle name)) :
    name ∈ d.typeNames ∧ TransGen d.Below (d.typeId name) (d.typeId name) := by
  obtain ⟨-, -, id, found, named⟩ := ofDescriptor_eq_subclassCycle_iff.1 failed
  have cycle := Registry.findCycle?_sound found
  obtain ⟨r, here⟩ := Option.isSome_iff_exists.1
    (Registry.isSome_get?_iff.2 (Registry.lt_size_of_transGen cycle))
  obtain ⟨name', mem, rfl, rfl⟩ := Descriptor.exists_name_of_get? here
  have same : name' = name := by
    rw [← named, Registry.nameOf, here]
    rfl
  subst same
  exact ⟨mem, TransGen.mono (fun _ _ => Descriptor.edge_registry.1) _ _ cycle⟩

/-- In a loaded database no type stands above itself. -/
theorem not_transGen_of_loaded (loaded : ofDescriptor d = .ok db) (id : TypeId) :
    ¬ TransGen db.registry.Edge id id := by
  obtain ⟨l⟩ := ofDescriptor_eq_ok.1 loaded
  obtain ⟨records, -, same, none⟩ := registryOf_eq_ok.1 l.registry_eq
  exact Registry.findCycle?_eq_none_iff.1 none id

/-- **Cycles are refused exactly.** The search for a cycle ends, reports none exactly if there
is none among the types of the registry, and what it reports is on one. So in a loaded
database to be a type or below it is a partial order, in which no type stands above itself.
And a document is refused for a cycle exactly if its names are valid, its references resolve
and there is one, which then goes through the type that is named. -/
theorem cycles_refused :
    (∀ r : Registry,
      r.findCycleWithin (r.edgeCount + 2 * r.size) = some r.findCycle? ∧
      (r.findCycle? = none ↔ ∀ id, ¬ TransGen r.InnerEdge id id) ∧
      ∀ id, r.findCycle? = some id → TransGen r.InnerEdge id id) ∧
    ∀ d : Descriptor,
      (∀ db, ofDescriptor d = .ok db →
        (∀ a, db.registry.isA a a = true) ∧
        (∀ a b c, db.registry.isA a b = true → db.registry.isA b c = true →
          db.registry.isA a c = true) ∧
        (∀ a b, db.registry.isA a b = true → db.registry.isA b a = true → a = b) ∧
        ∀ a, ¬ TransGen db.registry.Edge a a ∧ a ∉ db.registry.ancestors a) ∧
      (∀ name, ofDescriptor d = .error (.subclassCycle name) →
        name ∈ d.typeNames ∧ TransGen d.Below (d.typeId name) (d.typeId name)) ∧
      ((∃ name, ofDescriptor d = .error (.subclassCycle name)) ↔
        (∀ e ∈ d.entries, Descriptor.isMediaType e.name = true) ∧
        (∀ w ∈ d.written (·.subClassOf), (d.resolve? w.2).isSome) ∧ ¬ d.Acyclic) := by
  refine ⟨fun r => ⟨r.findCycleWithin_eq, ?_, fun id found => ?_⟩, fun d =>
    ⟨fun db loaded => ?_, fun name => transGen_below_of_subclassCycle, subclassCycle_iff⟩⟩
  · simp only [Registry.transGen_innerEdge_self_iff]
    exact Registry.findCycle?_eq_none_iff
  · exact Registry.transGen_innerEdge_self_iff.2 (Registry.findCycle?_sound found)
  · have acyclic := not_transGen_of_loaded loaded
    refine ⟨fun a => Registry.isA_iff.2 (.inl rfl), fun a b c => Registry.isA_trans,
      fun a b => Registry.eq_of_isA (acyclic a), fun a => ⟨acyclic a, fun mem => ?_⟩⟩
    exact (Registry.mem_ancestors_iff.1 mem).1 rfl

/-- Two types, each below the other, one of them by way of an alias. -/
def ring : Descriptor where
  entries :=
    [{ name := "text/x-a", aliases := ["text/a"], subClassOf := ["text/x-a", "text/x-b"] },
     { name := "text/x-b", subClassOf := ["text/a"] }]

theorem ring_not_acyclic : ¬ ring.Acyclic := by
  intro acyclic
  refine acyclic ⟨0⟩ (.head (b := ⟨1⟩) ?_ (.single ?_))
  · exact ⟨("text/x-a", "text/x-b"), by decide +kernel⟩
  · exact ⟨("text/x-b", "text/a"), by decide +kernel⟩

/-- The ring is refused for the cycle in it, and the shelf, which has none, is in order. -/
theorem ring_refused :
    (∃ name, ofDescriptor ring = .error (.subclassCycle name) ∧
      TransGen ring.Below (ring.typeId name) (ring.typeId name)) ∧
    ∃ db, ofDescriptor shelf = .ok db ∧
      ∀ a b, db.registry.isA a b = true → db.registry.isA b a = true → a = b := by
  obtain ⟨-, cyclic, refused⟩ := cycles_refused.2 ring
  obtain ⟨name, failed⟩ := refused.2 ⟨by decide +kernel, by decide +kernel, ring_not_acyclic⟩
  obtain ⟨db, loaded⟩ := loads_iff.2 (loadable_of_sound shelf_sound)
  exact ⟨⟨name, failed, (cyclic name failed).2⟩, db, loaded,
    ((cycles_refused.2 shelf).1 db loaded).2.2.1⟩

end Database

end MediaSniff
