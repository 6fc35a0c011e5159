/-
# MediaSniff.Proofs.Database.Loading — what a database that loads has gone through

Compiling a document is a chain of steps, and a database is what the last of them makes of
the results of the others. `Loading` keeps those results: the merged entries, and the
rules compiled from them. A document loads exactly if there is a `Loading` of it
(`ofDescriptor_eq_ok`).

What is known of a loaded database is read off its `Loading`: every rule in its tables was
compiled from a rule of an entry (`exists_entry_of_mem`), and the five sentinels are five
types (`Loading.nodup_sentinels`).
-/
import MediaSniff.Database.Basic
import MediaSniff.Proofs.Outcome
import Mathlib.Data.List.Nodup

set_option autoImplicit false

namespace MediaSniff.Database

open Descriptor

/-! ## The steps -/

/-- The steps from a document to a database. -/
structure Loading (d : Descriptor) (db : Database) where
  merged : List Entry
  rules : Rules
  merge_eq : merge d.entries = .ok merged
  registry_eq : registryOf merged = .ok db.registry
  sentinels_eq : sentinelsOf db.registry = .ok db.sentinels
  rules_eq : compileEntries db.registry 0 ∅ merged = .ok rules
  globs_eq : db.globs = .ofList rules.globs db.sentinels.unknown
  magic_eq : db.magic = .ofList rules.magic db.sentinels
  roots_eq : db.roots = .ofList rules.roots db.sentinels
  layouts_eq : db.layouts = .ofList rules.layouts db.sentinels

/-- **A document loads if all steps succeed.** -/
theorem ofDescriptor_eq_ok {d : Descriptor} {db : Database} :
    ofDescriptor d = .ok db ↔ Nonempty (Loading d db) := by
  rw [ofDescriptor, Outcome.bind_eq_ok]
  constructor
  · rintro ⟨merged, merge_eq, loaded⟩
    obtain ⟨registry, registry_eq, loaded⟩ := Outcome.bind_eq_ok.1 loaded
    obtain ⟨sentinels, sentinels_eq, loaded⟩ := Outcome.bind_eq_ok.1 loaded
    obtain ⟨rules, rules_eq, loaded⟩ := Outcome.bind_eq_ok.1 loaded
    cases loaded
    exact ⟨⟨merged, rules, merge_eq, registry_eq, sentinels_eq, rules_eq, rfl, rfl, rfl, rfl⟩⟩
  · rintro ⟨merged, rules, merge_eq, registry_eq, sentinels_eq, rules_eq, globs_eq, magic_eq,
      roots_eq, layouts_eq⟩
    refine ⟨merged, merge_eq, Outcome.bind_eq_ok.2 ⟨_, registry_eq, ?_⟩⟩
    refine Outcome.bind_eq_ok.2 ⟨_, sentinels_eq, Outcome.bind_eq_ok.2 ⟨_, rules_eq, ?_⟩⟩
    rw [← globs_eq, ← magic_eq, ← roots_eq, ← layouts_eq]
    rfl

/-! ## Types -/

/-- The registry is that of the records if no type stands above itself. -/
theorem registryOf_eq_ok {merged : List Entry} {registry : Registry} :
    registryOf merged = .ok registry ↔
      ∃ records, recordsOf (.ofList (merged.map recordOf)) 0 merged = .ok records ∧
        registry = .ofList records ∧ registry.findCycle? = none := by
  rw [registryOf, Outcome.bind_eq_ok]
  refine exists_congr fun records => and_congr_right fun _ => ?_
  dsimp only
  cases cycle : (Registry.ofList records).findCycle? with
  | none =>
      rw [Except.ok.injEq]
      constructor
      · rintro rfl
        exact ⟨rfl, cycle⟩
      · rintro ⟨rfl, -⟩
        rfl
  | some id =>
      refine iff_of_false nofun ?_
      rintro ⟨rfl, acyclic⟩
      rw [cycle] at acyclic
      cases acyclic

/-! ## Rules -/

theorem compileGlob_eq_ok {type : String} {id : TypeId} {rule : GlobRule} {g : Glob} :
    compileGlob type id rule = .ok g ↔
      Glob.compile rule.pattern rule.caseSensitive rule.effectiveWeight id = .ok g := by
  unfold compileGlob
  split
  · rename_i g' done
    rw [done, Except.ok.injEq, Except.ok.injEq]
  · rename_i weight failed
    rw [failed]
    exact iff_of_false nofun nofun
  · rename_i cause _ failed
    rw [failed]
    exact iff_of_false nofun nofun

theorem compileMagic_eq_ok {type : String} {id : TypeId} {rule : MagicRule}
    {s : Magic.Signature} :
    compileMagic type id rule = .ok s ↔
      Magic.Signature.compile id rule.priority rule.tests = .ok s := by
  unfold compileMagic
  split
  · rename_i s' done
    rw [done, Except.ok.injEq, Except.ok.injEq]
  · rename_i priority failed
    rw [failed]
    exact iff_of_false nofun nofun
  · rename_i cause _ failed
    rw [failed]
    exact iff_of_false nofun nofun

/-- The rules of an entry are compiled kind by kind. -/
theorem compileEntry_eq_ok {registry : Registry} {id : TypeId}
    {registered : Std.HashSet RootElement} {e : Entry} {part : Rules} :
    compileEntry registry id registered e = .ok part ↔
      e.globs.mapM (compileGlob e.name id) = .ok part.globs ∧
      e.magic.mapM (compileMagic e.name id) = .ok part.magic ∧
      compileRoots e.name id registered e.rootElements = .ok part.roots ∧
      (e.layouts.mapM fun rule =>
        Layout.Signature.compile e.name id rule registry.lookup?) = .ok part.layouts := by
  rw [compileEntry, Outcome.bind_eq_ok]
  constructor
  · rintro ⟨globs, globs_eq, done⟩
    obtain ⟨magic, magic_eq, done⟩ := Outcome.bind_eq_ok.1 done
    obtain ⟨roots, roots_eq, done⟩ := Outcome.bind_eq_ok.1 done
    obtain ⟨layouts, layouts_eq, done⟩ := Outcome.bind_eq_ok.1 done
    cases done
    exact ⟨globs_eq, magic_eq, roots_eq, layouts_eq⟩
  · rintro ⟨globs_eq, magic_eq, roots_eq, layouts_eq⟩
    refine ⟨_, globs_eq, Outcome.bind_eq_ok.2 ⟨_, magic_eq, ?_⟩⟩
    exact Outcome.bind_eq_ok.2 ⟨_, roots_eq, Outcome.bind_eq_ok.2 ⟨_, layouts_eq, rfl⟩⟩

/-- Every rule was compiled with the entry that it stems from. `field` is one of the four
kinds of rules. -/
theorem exists_entry_of_mem {α : Type} (field : Rules → List α) (blank : field {} = [])
    (append : ∀ a b : Rules, field (a.append b) = field a ++ field b) {registry : Registry}
    {entries : List Entry} {next : Nat} {registered : Std.HashSet RootElement} {rules : Rules}
    (done : compileEntries registry next registered entries = .ok rules) {a : α}
    (mem : a ∈ field rules) :
    ∃ k, ∃ inside : k < entries.length, ∃ before part,
      compileEntry registry ⟨next + k⟩ before entries[k] = .ok part ∧ a ∈ field part := by
  induction entries generalizing next registered rules with
  | nil =>
      cases done
      rw [blank] at mem
      cases mem
  | cons e entries ih =>
      rw [compileEntries] at done
      obtain ⟨part, first, done⟩ := Outcome.bind_eq_ok.1 done
      obtain ⟨others, rest, done⟩ := Outcome.bind_eq_ok.1 done
      cases done
      rw [append, List.mem_append] at mem
      rcases mem with here | later
      · exact ⟨0, Nat.succ_pos _, registered, part, first, here⟩
      · obtain ⟨k, inside, before, part, compiled, mem⟩ := ih rest later
        refine ⟨k + 1, Nat.succ_lt_succ inside, before, part, ?_, mem⟩
        rwa [Nat.add_right_comm, Nat.add_assoc] at compiled

namespace Loading

variable {d : Descriptor} {db : Database}

/-- Every filename rule was compiled from a rule of the entry of its owner. -/
theorem exists_globRule (l : Loading d db) {g : Glob} (mem : g ∈ l.rules.globs) :
    ∃ k, ∃ inside : k < l.merged.length, ∃ rule ∈ l.merged[k].globs,
      Glob.compile rule.pattern rule.caseSensitive rule.effectiveWeight ⟨k⟩ = .ok g := by
  obtain ⟨k, inside, before, part, compiled, mem⟩ :=
    exists_entry_of_mem Rules.globs rfl (fun _ _ => rfl) l.rules_eq mem
  obtain ⟨rule, written, done⟩ :=
    Outcome.exists_of_mapM_eq_ok (compileEntry_eq_ok.1 compiled).1 mem
  rw [compileGlob_eq_ok, Nat.zero_add] at done
  exact ⟨k, inside, rule, written, done⟩

/-- Every content rule was compiled from a rule of the entry of its owner. -/
theorem exists_magicRule (l : Loading d db) {s : Magic.Signature} (mem : s ∈ l.rules.magic) :
    ∃ k, ∃ inside : k < l.merged.length, ∃ rule ∈ l.merged[k].magic,
      Magic.Signature.compile ⟨k⟩ rule.priority rule.tests = .ok s := by
  obtain ⟨k, inside, before, part, compiled, mem⟩ :=
    exists_entry_of_mem Rules.magic rfl (fun _ _ => rfl) l.rules_eq mem
  obtain ⟨rule, written, done⟩ :=
    Outcome.exists_of_mapM_eq_ok (compileEntry_eq_ok.1 compiled).2.1 mem
  rw [compileMagic_eq_ok, Nat.zero_add] at done
  exact ⟨k, inside, rule, written, done⟩

end Loading

/-! ## Sentinels -/

theorem sentinel_eq_ok {registry : Registry} {name : String} {id : TypeId} :
    sentinel registry name = .ok id ↔
      registry.lookup? name = some id ∧ registry.nameOf id = name := by
  unfold sentinel
  cases found : registry.lookup? name with
  | none => exact iff_of_false nofun nofun
  | some id' =>
      by_cases canonical : registry.nameOf id' = name
      · simp only [Option.filter, canonical, beq_self_eq_true, if_true, Except.ok.injEq,
          Option.some.injEq]
        exact ⟨fun same => ⟨same, same ▸ canonical⟩, And.left⟩
      · have other : (registry.nameOf id' == name) = false := by simpa using canonical
        simp only [Option.filter, other, Bool.false_eq_true, if_false, Option.some.injEq]
        refine iff_of_false nofun ?_
        rintro ⟨rfl, named⟩
        exact canonical named

theorem sentinelsOf_eq_ok {registry : Registry} {s : Sentinels} :
    sentinelsOf registry = .ok s ↔
      sentinel registry Sentinels.unknownName = .ok s.unknown ∧
      sentinel registry Sentinels.textName = .ok s.text ∧
      sentinel registry Sentinels.emptyName = .ok s.empty ∧
      sentinel registry Sentinels.directoryName = .ok s.directory ∧
      sentinel registry Sentinels.xmlName = .ok s.xml := by
  rw [sentinelsOf, Outcome.bind_eq_ok]
  constructor
  · rintro ⟨unknown, unknown_eq, done⟩
    obtain ⟨text, text_eq, done⟩ := Outcome.bind_eq_ok.1 done
    obtain ⟨empty, empty_eq, done⟩ := Outcome.bind_eq_ok.1 done
    obtain ⟨directory, directory_eq, done⟩ := Outcome.bind_eq_ok.1 done
    obtain ⟨xml, xml_eq, done⟩ := Outcome.bind_eq_ok.1 done
    cases done
    exact ⟨unknown_eq, text_eq, empty_eq, directory_eq, xml_eq⟩
  · rintro ⟨unknown_eq, text_eq, empty_eq, directory_eq, xml_eq⟩
    refine ⟨_, unknown_eq, Outcome.bind_eq_ok.2 ⟨_, text_eq, Outcome.bind_eq_ok.2 ⟨_, empty_eq, ?_⟩⟩⟩
    exact Outcome.bind_eq_ok.2 ⟨_, directory_eq, Outcome.bind_eq_ok.2 ⟨_, xml_eq, rfl⟩⟩

/-- **The sentinels are five types.** They go by five names. -/
theorem Loading.nodup_sentinels {d : Descriptor} {db : Database} (l : Loading d db) :
    [db.sentinels.unknown, db.sentinels.text, db.sentinels.empty, db.sentinels.directory,
      db.sentinels.xml].Nodup := by
  obtain ⟨unknown, text, empty, directory, xml⟩ := sentinelsOf_eq_ok.1 l.sentinels_eq
  apply List.Nodup.of_map db.registry.nameOf
  simp only [List.map_cons, List.map_nil, (sentinel_eq_ok.1 unknown).2, (sentinel_eq_ok.1 text).2,
    (sentinel_eq_ok.1 empty).2, (sentinel_eq_ok.1 directory).2, (sentinel_eq_ok.1 xml).2]
  decide

end MediaSniff.Database
