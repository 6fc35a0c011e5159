/-
# MediaSniff.Proofs.Descriptor.NormalForm — merged entries

Entries are in normal form (`Normal`) if each is about another type and none of them says
anything twice: no alias, no superclass, no filename rule but for its weight, and no empty text
where there might as well be none. Merging gives a normal form of what it merges
(`merge_normal_form`): nothing is lost of what the entries say (`Gathers`), and of the weights
of one filename rule the greatest stands.

Entries in normal form are left as they are, down to the order of their fields
(`merge_of_normal`). So merging twice is merging once.
-/
import MediaSniff.Proofs.Descriptor.Merging
import Mathlib.Order.Bounds.Defs

set_option autoImplicit false

namespace MediaSniff.Descriptor

variable {d : Descriptor} {entries : List Entry} {e : Entry} {rules : List GlobRule}
  {rule : GlobRule}

/-- An entry that says nothing twice. A text that can be left out is left out or is there. -/
structure Entry.Normal (e : Entry) : Prop where
  acronym : e.acronym ≠ some ""
  expandedAcronym : e.expandedAcronym ≠ some ""
  icon : e.icon ≠ some ""
  genericIcon : e.genericIcon ≠ some ""
  aliases : e.aliases.Nodup
  subClassOf : e.subClassOf.Nodup
  globs : (e.globs.map (·.key)).Nodup

/-- Entries that say nothing twice, each about another type. -/
structure Normal (entries : List Entry) : Prop where
  names : (entries.map (·.name)).Nodup
  each : ∀ e ∈ entries, e.Normal

/-- An entry says what a document says about its type. Of the weights that are declared for one
filename rule it has the greatest. -/
structure Gathers (d : Descriptor) (e : Entry) : Prop where
  aliases : ∀ name, name ∈ e.aliases ↔ (e.name, name) ∈ d.written (·.aliases)
  subClassOf : ∀ name, name ∈ e.subClassOf ↔ (e.name, name) ∈ d.written (·.subClassOf)
  globs : ∀ key, key ∈ e.globs.map (·.key) ↔
    ∃ rule, (e.name, rule) ∈ d.written (·.globs) ∧ rule.key = key
  heaviest : ∀ rule ∈ e.globs,
    IsGreatest {weight | ∃ rule', (e.name, rule') ∈ d.written (·.globs) ∧ rule'.key = rule.key ∧
      rule'.effectiveWeight = weight} rule.effectiveWeight

/-! ## What merging leaves -/

theorem firstText?_ne_blank (texts : List String) : firstText? texts ≠ some "" := by
  intro first
  cases isEmpty_of_firstText? first

theorem nodup_keys_unite (rules : List GlobRule) : ((unite rules).map (·.key)).Nodup := by
  rw [map_key_unite]
  exact nodup_eraseDups _

theorem normal_about (d : Descriptor) (name : String) : (d.about name).Normal where
  acronym := firstText?_ne_blank _
  expandedAcronym := firstText?_ne_blank _
  icon := firstText?_ne_blank _
  genericIcon := firstText?_ne_blank _
  aliases := nodup_distinct _
  subClassOf := nodup_distinct _
  globs := nodup_keys_unite _

theorem gathers_about (d : Descriptor) (name : String) : Gathers d (d.about name) where
  aliases _ := mem_distinct.trans mem_said
  subClassOf _ := mem_distinct.trans mem_said
  globs key := by
    rw [about_globs, about_name, map_key_unite, List.mem_eraseDups, List.mem_map]
    simp only [mem_said]
  heaviest rule mem := by
    have kept : rule ∈ unite (d.said (·.globs) name) := mem
    have weight : rule.effectiveWeight = d.greatestWeight (name, rule.key) := by
      rw [greatestWeight_eq, max?_declaredWeights_of_mem kept, Option.getD_some]
    have written : rule.key ∈ (d.about name).globs.map (·.key) := List.mem_map_of_mem mem
    rw [about_globs, map_key_unite, List.mem_eraseDups, List.mem_map] at written
    obtain ⟨rule', said, same⟩ := written
    have keyed : (name, rule.key) ∈ d.globKeys := mem_globKeys.2 ⟨rule', mem_said.1 said, same⟩
    constructor
    · obtain ⟨heaviest, written, same, greatest⟩ := exists_greatestWeight keyed
      exact ⟨heaviest, written, same, greatest.trans weight.symm⟩
    · rintro _ ⟨rule', written, same, rfl⟩
      rw [weight, ← same]
      exact effectiveWeight_le_greatestWeight written

theorem normal_map_about (d : Descriptor) : Normal (d.typeNames.map d.about) where
  names := by
    rw [List.map_map]
    exact (List.map_id' d.typeNames).symm ▸ nodup_typeNames
  each := by
    rw [List.forall_mem_map]
    exact fun name _ => normal_about d name

/-! ## What merging leaves alone -/

theorem firstText?_toList {text : Option String} (written : text ≠ some "") :
    firstText? text.toList = text := by
  cases text with
  | none => rfl
  | some text =>
      have some : text ≠ "" := fun blank => written (congrArg _ blank)
      simp [firstText?, some]

theorem firstText_singleton (text : String) : firstText [text] = text := by
  by_cases blank : text = ""
  · rw [blank]
    rfl
  · simp [firstText, firstText?, blank]

theorem addGlob_of_new (new : rule.key ∉ rules.map (·.key)) :
    addGlob rules rule = rules ++ [rule] := by
  induction rules with
  | nil => rfl
  | cons known rules ih =>
      rw [List.map_cons, List.mem_cons, not_or] at new
      have other : ¬ known.same rule = true := fun same =>
        new.1 (GlobRule.same_iff.1 same).symm
      rw [addGlob, if_neg other, ih new.2, List.cons_append]

theorem unite_of_nodup (once : (rules.map (·.key)).Nodup) : unite rules = rules := by
  induction rules using List.reverseRecOn with
  | nil => rfl
  | append_singleton rules rule ih =>
      rw [List.map_append, List.nodup_append] at once
      obtain ⟨once, -, apart⟩ := once
      have new : rule.key ∉ rules.map (·.key) := fun mem =>
        apart _ mem _ List.mem_cons_self rfl
      rw [unite, List.foldl_concat, ← unite, ih once, addGlob_of_new new]

/-- An entry that says nothing twice is not changed. -/
theorem combine_singleton (normal : e.Normal) : Entry.combine e.name [e] = e := by
  cases e with
  | mk name comment acronym expandedAcronym icon genericIcon aliases subClassOf globs magic layouts
      rootElements =>
      simp only [Entry.combine, List.map_singleton, List.filterMap_eq_flatMap_toList,
        List.flatMap_singleton, firstText_singleton, firstText?_toList normal.acronym,
        firstText?_toList normal.expandedAcronym, firstText?_toList normal.icon,
        firstText?_toList normal.genericIcon, distinct_eq_eraseDups,
        eraseDups_eq_self normal.aliases, eraseDups_eq_self normal.subClassOf]
      have united : globs.foldl addGlob [] = globs := unite_of_nodup normal.globs
      rw [united]

/-- The only entry about its type. -/
theorem filter_name_of_nodup (once : (entries.map (·.name)).Nodup) (mem : e ∈ entries) :
    (entries.filter fun e' => e'.name == e.name) = [e] := by
  induction entries with
  | nil => cases mem
  | cons first entries ih =>
      rw [List.map_cons, List.nodup_cons] at once
      obtain ⟨new, once⟩ := once
      rcases List.mem_cons.1 mem with rfl | mem
      · have others : ∀ e' ∈ entries, ¬ (e'.name == e.name) = true := fun e' mem same =>
          new (beq_iff_eq.1 same ▸ List.mem_map_of_mem mem)
        rw [List.filter_cons, if_pos BEq.rfl, List.filter_eq_nil_iff.2 others]
      · have other : ¬ (first.name == e.name) = true := fun same =>
          new (beq_iff_eq.1 same ▸ List.mem_map_of_mem mem)
        rw [List.filter_cons, if_neg other, ih once mem]

/-- **A normal form is left as it is.** -/
theorem merge_of_normal (valid : ∀ e ∈ entries, isMediaType e.name = true)
    (normal : Normal entries) : merge entries = .ok entries := by
  have only : ∀ e ∈ entries, about ⟨entries⟩ e.name = e := by
    intro e mem
    rw [about, filter_name_of_nodup normal.names mem, combine_singleton (normal.each e mem)]
  refine (merge_eq_ok (d := ⟨entries⟩)).2 ⟨valid, ?_⟩
  rw [typeNames, eraseDups_eq_self normal.names, List.map_map]
  exact ((List.map_congr_left only).trans (List.map_id' entries)).symm

/-- **Merging gives a normal form.** Of the entries of one type one remains, where the first of
them stood. -/
theorem merge_normal_form (valid : ∀ e ∈ d.entries, isMediaType e.name = true) :
    ∃ merged, merge d.entries = .ok merged ∧
      merged.map (·.name) = (d.entries.map (·.name)).eraseDups ∧ Normal merged ∧
      (∀ e ∈ merged, Gathers d e) ∧ merge merged = .ok merged := by
  have normal := normal_map_about d
  have names : (d.typeNames.map d.about).map (·.name) = d.typeNames := by
    rw [List.map_map]
    exact List.map_id' _
  refine ⟨_, merge_eq_ok.2 ⟨valid, rfl⟩, names, normal, ?_, merge_of_normal ?_ normal⟩
  · rw [List.forall_mem_map]
    exact fun name _ => gathers_about d name
  · rw [List.forall_mem_map]
    intro name mem
    obtain ⟨e, inDocument, rfl⟩ := mem_typeNames.1 mem
    exact valid e inDocument

/-- Two entries about one type, with another between them. They repeat an alias and a rule,
with three weights for it, and leave a text empty. -/
def repetitive : Descriptor where
  entries :=
    [{ name := "text/x-a", acronym := some "", aliases := ["text/a", "text/a"],
       globs := [{ pattern := "*.a", weight := some 40 }, { pattern := "*.a" }] },
     { name := "text/x-b" },
     { name := "text/x-a", acronym := some "A", aliases := ["text/a"], subClassOf := ["text/x-b"],
       globs := [{ pattern := "*.a", caseSensitive := true },
         { pattern := "*.a", weight := some 60 }] }]

theorem repetitive_normal_form :
    (∀ e ∈ repetitive.entries, isMediaType e.name = true) ∧
    ∃ merged, merge repetitive.entries = .ok merged ∧
      merged.map (·.name) = (repetitive.entries.map (·.name)).eraseDups ∧ Normal merged ∧
      (∀ e ∈ merged, Gathers repetitive e) ∧ merge merged = .ok merged := by
  have valid : ∀ e ∈ repetitive.entries, isMediaType e.name = true := by decide +kernel
  exact ⟨valid, merge_normal_form valid⟩

/-- The greatest weight stands, and treatment of case tells rules apart. -/
example : (repetitive.about "text/x-a").globs =
    [{ pattern := "*.a", weight := some 60 }, { pattern := "*.a", caseSensitive := true }] := by
  decide +kernel

end MediaSniff.Descriptor
