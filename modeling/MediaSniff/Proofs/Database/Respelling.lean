/-
# MediaSniff.Proofs.Database.Respelling — rules that are counted twice

Filename rules of one type are united if they have one pattern and one treatment of case, as
they are written. What a name is tried on is what they are compiled to, and patterns that differ
can read alike: `*.a` and `*.A` if case is ignored, `[a-cx]` and `[xa-c]` in any case. Such
rules are compiled one by one, and a name that one of them accepts has a candidate for each
(`respelled_counted_twice`). Two candidates let content win over a name, where one does not.

Nothing else is counted twice. The rules of a type are compiled to different ones exactly if no
two of them differ and read alike, and a name has a single candidate exactly if the rules that
accept it are one but for their weights (`counted_once_iff`).
-/
import MediaSniff.Database.Classify
import MediaSniff.Proofs.Database.Document
import MediaSniff.Proofs.Database.Faithful
import MediaSniff.Proofs.Glob.Reading
import Mathlib.Data.List.Perm.Basic

set_option autoImplicit false

namespace MediaSniff.Database

open Descriptor (GlobRule sentinelNames)

variable {d : Descriptor} {db : Database}

/-- The rule that a key of a document compiles to. -/
def globOf (d : Descriptor) (key : String × String × Bool) : Glob :=
  .ofKey key.2 (d.greatestWeight key) (d.typeId key.1)

theorem Inventory.compile_key (holds : Inventory d db) {key : String × String × Bool}
    (mem : key ∈ d.globKeys) :
    Glob.compile key.2.1 key.2.2 (d.greatestWeight key) (d.typeId key.1) = .ok (globOf d key) := by
  have filed := holds.globs.mem_iff.1 (List.mem_map_of_mem mem)
  obtain ⟨g, -, compiled⟩ := List.mem_map.1 filed
  rw [← compiled, Glob.compile_eq_ofKey compiled.symm]
  rfl

/-- A document is compiled key by key. -/
theorem Inventory.rules_perm (holds : Inventory d db) :
    db.globs.rules.Perm (d.globKeys.map (globOf d)) := by
  have compiled : (d.globKeys.map fun key => Glob.compile key.2.1 key.2.2 (d.greatestWeight key)
      (d.typeId key.1)) = (d.globKeys.map (globOf d)).map .ok := by
    rw [List.map_map]
    exact List.map_congr_left fun key mem => holds.compile_key mem
  have injective : Function.Injective (Except.ok : Glob → Except Glob.Error Glob) :=
    fun _ _ same => Except.ok.inj same
  exact ((List.map_perm_map_iff injective).1 (compiled ▸ holds.globs)).symm

/-! ## The rules of one type -/

/-- **The rules of a type are compiled to different ones** if no two of them differ and read
alike. -/
theorem Inventory.nodup_kinds_iff (holds : Inventory d db) {name : String}
    (type : name ∈ d.typeNames) :
    ((db.globs.rules.filter fun g => g.owner = d.typeId name).map Glob.kind).Nodup ↔
      ∀ rule ∈ d.said (·.globs) name, ∀ rule' ∈ d.said (·.globs) name,
        Glob.readingOf rule.key = Glob.readingOf rule'.key → rule.key = rule'.key := by
  have own : (db.globs.rules.filter fun g => g.owner = d.typeId name).Perm
      ((d.globKeys.filter fun key => key.1 = name).map (globOf d)) := by
    refine (holds.rules_perm.filter _).trans (List.Perm.of_eq ?_)
    rw [List.filter_map]
    refine congrArg _ (List.filter_congr fun key _ => ?_)
    exact decide_eq_decide.2 (eq_comm.trans ((Descriptor.typeId_inj type).trans eq_comm))
  have once : (d.globKeys.filter fun key => key.1 = name).Nodup := (nodup_eraseDups _).filter _
  have mem_iff : ∀ key, key ∈ d.globKeys.filter (fun key => key.1 = name) ↔
      ∃ rule ∈ d.said (·.globs) name, key = (name, rule.key) := by
    rintro ⟨type, key⟩
    simp only [List.mem_filter, decide_eq_true_eq, Descriptor.mem_globKeys, Descriptor.mem_said,
      Prod.mk.injEq]
    constructor
    · rintro ⟨⟨rule, written, same⟩, rfl⟩
      exact ⟨rule, written, rfl, same.symm⟩
    · rintro ⟨rule, written, rfl, rfl⟩
      exact ⟨⟨rule, written, rfl⟩, rfl⟩
  rw [(own.map Glob.kind).nodup_iff, List.map_map, List.nodup_map_iff_inj_on once]
  simp only [mem_iff, Function.comp_apply, globOf, Glob.kind_ofKey_eq_iff]
  constructor
  · intro apart rule said rule' said' alike
    exact congrArg Prod.snd (apart _ ⟨rule, said, rfl⟩ _ ⟨rule', said', rfl⟩ alike)
  · rintro apart _ ⟨rule, said, rfl⟩ _ ⟨rule', said', rfl⟩ alike
    rw [apart rule said rule' said' alike]

/-- Without brackets, only patterns in different case are spellings of one. -/
theorem apart_iff_of_bracketless {rules : List GlobRule}
    (bracketless : ∀ rule ∈ rules, '[' ∉ rule.pattern.toList) :
    (∀ rule ∈ rules, ∀ rule' ∈ rules,
      Glob.readingOf rule.key = Glob.readingOf rule'.key → rule.key = rule'.key) ↔
    ∀ rule ∈ rules, ∀ rule' ∈ rules, rule.caseSensitive = false → rule'.caseSensitive = false →
      Text.lowercase rule.pattern = Text.lowercase rule'.pattern →
        rule.pattern = rule'.pattern := by
  refine forall₂_congr fun rule mem => forall₂_congr fun rule' mem' => ?_
  rw [Glob.readingOf_eq_iff_of_bracketless (bracketless rule mem) (bracketless rule' mem')]
  cases here : rule.caseSensitive <;> cases there : rule'.caseSensitive <;>
    simp [GlobRule.key, Glob.inCase, here, there]

/-! ## The candidates for a name -/

/-- The keys of a document whose rules accept a name. -/
def acceptingKeys (d : Descriptor) (name : String) : List (String × String × Bool) :=
  d.globKeys.filter fun key => (globOf d key).acceptsName name

theorem Inventory.mem_acceptingKeys (holds : Inventory d db) {name : String}
    {key : String × String × Bool} :
    key ∈ acceptingKeys d name ↔
      ∃ w ∈ d.written (·.globs), Glob.Covers w.2.key name ∧ key = (w.1, w.2.key) := by
  rw [acceptingKeys, List.mem_filter]
  constructor
  · rintro ⟨mem, accepts⟩
    obtain ⟨rule, written, same⟩ := Descriptor.mem_globKeys.1 mem
    have covers := (Glob.acceptsName_iff_covers (holds.compile_key mem) name).1 accepts
    exact ⟨(key.1, rule), written, same ▸ covers, Prod.ext rfl same.symm⟩
  · rintro ⟨w, written, covers, rfl⟩
    have mem : (w.1, w.2.key) ∈ d.globKeys := Descriptor.mem_globKeys.2 ⟨w.2, written, rfl⟩
    exact ⟨mem, (Glob.acceptsName_iff_covers (holds.compile_key mem) name).2 covers⟩

/-- A name has a candidate for each key. -/
theorem Loading.length_candidates (l : Loading d db) (name : String) :
    (db.globs.candidates name).length = max 1 (acceptingKeys d name).length := by
  have filed : l.rules.globs.Perm (d.globKeys.map (globOf d)) :=
    (l.globs_eq ▸ Glob.Index.rules_ofList _ _).symm.trans l.inventory.rules_perm
  rw [l.globs_eq, Glob.length_candidates, filed.countP_eq, List.countP_map,
    List.countP_eq_length_filter]
  rfl

/-- **A name has a single candidate** if the rules that accept it are one but for their
weights. -/
theorem length_candidates_eq_one_iff (loaded : ofDescriptor d = .ok db) (name : String) :
    (db.globs.candidates name).length = 1 ↔
      ∀ w ∈ d.written (·.globs), ∀ w' ∈ d.written (·.globs),
        Glob.Covers w.2.key name → Glob.Covers w'.2.key name →
          w.1 = w'.1 ∧ w.2.key = w'.2.key := by
  obtain ⟨l⟩ := ofDescriptor_eq_ok.1 loaded
  have once : (acceptingKeys d name).Nodup := (nodup_eraseDups _).filter _
  have single : (db.globs.candidates name).length = 1 ↔ (acceptingKeys d name).length ≤ 1 := by
    rw [l.length_candidates]
    omega
  rw [single, length_le_one_iff_of_nodup once]
  simp only [l.inventory.mem_acceptingKeys]
  constructor
  · intro same w written w' written' covers covers'
    exact Prod.ext_iff.1 (same _ ⟨w, written, covers, rfl⟩ _ ⟨w', written', covers', rfl⟩)
  · rintro same _ ⟨w, written, covers, rfl⟩ _ ⟨w', written', covers', rfl⟩
    exact Prod.ext_iff.2 (same w written w' written' covers covers')

/-! ## Counting once -/

/-- **What is counted twice.** The rules of a type are compiled to different ones exactly if no
two of them differ and read alike; without brackets, if no two of them that ignore case have
different patterns that are one in lowercase. A name is taken to be unambiguous exactly if the
rules that accept it are one but for their weights. -/
theorem counted_once_iff (loaded : ofDescriptor d = .ok db) :
    (∀ name ∈ d.typeNames,
      let own := (db.globs.rules.filter fun g => g.owner = d.typeId name).map Glob.kind
      (own.Nodup ↔ ∀ rule ∈ d.said (·.globs) name, ∀ rule' ∈ d.said (·.globs) name,
        Glob.readingOf rule.key = Glob.readingOf rule'.key → rule.key = rule'.key) ∧
      ((∀ rule ∈ d.said (·.globs) name, '[' ∉ rule.pattern.toList) →
        (own.Nodup ↔ ∀ rule ∈ d.said (·.globs) name, ∀ rule' ∈ d.said (·.globs) name,
          rule.caseSensitive = false → rule'.caseSensitive = false →
            Text.lowercase rule.pattern = Text.lowercase rule'.pattern →
              rule.pattern = rule'.pattern))) ∧
    ∀ name, contentWins .default (db.globs.candidates name).length = false ↔
      ∀ w ∈ d.written (·.globs), ∀ w' ∈ d.written (·.globs),
        Glob.Covers w.2.key name → Glob.Covers w'.2.key name →
          w.1 = w'.1 ∧ w.2.key = w'.2.key := by
  obtain ⟨l⟩ := ofDescriptor_eq_ok.1 loaded
  constructor
  · intro name type own
    have once := l.inventory.nodup_kinds_iff type
    exact ⟨once, fun bracketless => once.trans (apart_iff_of_bracketless bracketless)⟩
  · intro name
    rw [← length_candidates_eq_one_iff loaded name]
    simp [contentWins]

/-- Two weights for one rule are no two spellings. -/
theorem shelf_counted_once :
    ∃ db, ofDescriptor shelf = .ok db ∧
      (∀ name ∈ shelf.typeNames,
        ((db.globs.rules.filter fun g => g.owner = shelf.typeId name).map Glob.kind).Nodup) ∧
      contentWins .default (db.globs.candidates "a.note").length = false := by
  obtain ⟨db, loaded⟩ := loads_iff.2 (loadable_of_sound shelf_sound)
  obtain ⟨types, names⟩ := counted_once_iff loaded
  have apart : ∀ name ∈ shelf.typeNames, ∀ rule ∈ shelf.said (·.globs) name,
      ∀ rule' ∈ shelf.said (·.globs) name, rule.key = rule'.key := by decide
  have single : ∀ w ∈ shelf.written (·.globs), ∀ w' ∈ shelf.written (·.globs),
      w.1 = w'.1 ∧ w.2.key = w'.2.key := by decide
  refine ⟨db, loaded, fun name type => (types name type).1.2 ?_, (names "a.note").2 ?_⟩
  · exact fun rule said rule' said' _ => apart name type rule said rule' said'
  · exact fun w written w' written' _ _ => single w written w' written'

/-- The sentinels, and a type with one filename rule that is spelled in two ways. -/
def respelled : Descriptor where
  entries := (sentinelNames.map fun name => { name }) ++
    [{ name := "text/x-a", globs := [{ pattern := "*.a" }, { pattern := "*.A" }] }]

theorem respelled_sound : respelled.Sound where
  toRulesValid := by decide +kernel
  once := by decide
  acyclic := Descriptor.acyclic_of_index_lt fun _ _ ⟨w, mem, _⟩ => nomatch mem
  sentinels := by decide

/-- Both spellings of the rule accept a name. -/
theorem respelled_covers : ∀ w ∈ respelled.written (·.globs), Glob.Covers w.2.key "x.a" := by
  have name : Text.utf8 (Glob.inCase "x.a" false) = [0x78] ++ [0x2E, 0x61] := by decide +kernel
  have texts : ∀ w ∈ respelled.written (·.globs), w.2.caseSensitive = false ∧
      Text.utf8 (Glob.inCase w.2.pattern false) = Glob.star :: [0x2E, 0x61] := by decide +kernel
  have plain : ∀ b ∈ ([0x2E, 0x61] : Bytes),
      b ∉ [Glob.star, Glob.openBracket, Glob.closeBracket] := by decide +kernel
  intro w written
  obtain ⟨ignored, text⟩ := texts w written
  rw [Glob.Covers, GlobRule.key, ignored, text, name]
  exact .trailing _ ((Glob.spells_of_plain plain).2 rfl)

/-- The two spellings are compiled to a rule each, and these do not differ. Content wins over a
name that they accept. -/
theorem respelled_counted_twice :
    ∃ db, ofDescriptor respelled = .ok db ∧
      ¬ ((db.globs.rules.filter fun g =>
        g.owner = respelled.typeId "text/x-a").map Glob.kind).Nodup ∧
      contentWins .default (db.globs.candidates "x.a").length = true := by
  obtain ⟨db, loaded⟩ := loads_iff.2 (loadable_of_sound respelled_sound)
  obtain ⟨l⟩ := ofDescriptor_eq_ok.1 loaded
  refine ⟨db, loaded, ?_, ?_⟩
  · rw [l.inventory.nodup_kinds_iff (by decide)]
    decide +kernel
  · have several : ¬ (db.globs.candidates "x.a").length = 1 := by
      rw [length_candidates_eq_one_iff loaded]
      intro single
      have one : ∀ w ∈ respelled.written (·.globs), ∀ w' ∈ respelled.written (·.globs),
          w.2.key = w'.2.key := fun w written w' written' =>
        (single w written w' written' (respelled_covers w written)
          (respelled_covers w' written')).2
      revert one
      decide
    simpa [contentWins] using several

end MediaSniff.Database
