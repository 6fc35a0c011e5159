/-
# MediaSniff.Proofs.Descriptor.GlobRules — one filename rule for each pattern

Filename rules of one type that have one pattern and treat case alike are one rule, and the
greatest of their weights is its weight. Merging adds the rules one by one (`addGlob`). What
a step does is told by two things, the keys of the rules that are there (`map_key_addGlob`)
and the weight that stands under a key (`weightIn?_addGlob`); by induction, merging leaves
one rule for each key, in the order in which the keys first appear, with the greatest weight
declared for it (`map_key_unite`, `weightIn?_unite`).

For a whole document this is `globs_perm`: the rules that merging leaves are those that its
keys and their greatest weights give.
-/
import MediaSniff.Proofs.Descriptor.Types
import Mathlib.Data.List.Induction
import Mathlib.Data.List.Nodup

set_option autoImplicit false

namespace MediaSniff.Descriptor

/-! ## Adding one rule -/

/-- What tells the filename rules of one type apart. -/
def GlobRule.key (rule : GlobRule) : String × Bool := (rule.pattern, rule.caseSensitive)

variable {rules : List GlobRule} {rule : GlobRule} {key : String × Bool}

@[simp] theorem GlobRule.same_iff {a b : GlobRule} : a.same b = true ↔ a.key = b.key := by
  simp [same, key]

/-- The weight that stands under a key. -/
def weightIn? (rules : List GlobRule) (key : String × Bool) : Option Nat :=
  (rules.find? fun rule => rule.key = key).map (·.effectiveWeight)

/-- The weights declared for a key. -/
def declaredWeights (rules : List GlobRule) (key : String × Bool) : List Nat :=
  (rules.filter fun rule => rule.key = key).map (·.effectiveWeight)

/-- A rule with a new key is put behind the others. -/
theorem map_key_addGlob (rules : List GlobRule) (rule : GlobRule) :
    (addGlob rules rule).map (·.key) =
      if rule.key ∈ rules.map (·.key) then rules.map (·.key)
      else rules.map (·.key) ++ [rule.key] := by
  induction rules with
  | nil => rfl
  | cons known rules ih =>
      rw [addGlob]
      by_cases same : known.key = rule.key
      · have present : rule.key ∈ (known :: rules).map (·.key) := by simp [same]
        rw [if_pos (GlobRule.same_iff.2 same), if_pos present]
        split <;> rfl
      · have other : ¬ rule.key = known.key := fun h => same h.symm
        rw [if_neg (by simpa using same), List.map_cons, ih, List.map_cons]
        by_cases later : rule.key ∈ rules.map (·.key)
        · rw [if_pos later, if_pos (List.mem_cons_of_mem _ later)]
        · rw [if_neg later, if_neg (by simpa [other] using later)]
          rfl

/-- Under the key of the new rule stands the greater of two weights, and all other weights
stay. -/
theorem weightIn?_addGlob (rules : List GlobRule) (rule : GlobRule) (key : String × Bool) :
    weightIn? (addGlob rules rule) key =
      if rule.key = key then (weightIn? rules key).merge max (some rule.effectiveWeight)
      else weightIn? rules key := by
  induction rules with
  | nil => by_cases same : rule.key = key <;> simp [addGlob, weightIn?, same]
  | cons known rules ih =>
      rw [addGlob]
      by_cases same : known.key = rule.key
      · rw [if_pos (GlobRule.same_iff.2 same)]
        -- The rule that stays has the key of the known one, whichever weight it has.
        have stays : ({ known with weight := rule.weight } : GlobRule).key = rule.key := same
        have heavier : ({ known with weight := rule.weight } : GlobRule).effectiveWeight =
            rule.effectiveWeight := rfl
        by_cases asked : rule.key = key
        · rw [if_pos asked]
          split
          · rename_i less
            simp [weightIn?, stays, same, asked, heavier, Nat.max_eq_right (Nat.le_of_lt less)]
          · rename_i notLess
            simp [weightIn?, same, asked, Nat.max_eq_left (Nat.not_lt.1 notLess)]
        · rw [if_neg asked]
          split <;> simp [weightIn?, stays, same, asked]
      · rw [if_neg (by simpa using same)]
        by_cases here : known.key = key
        · have other : ¬ rule.key = key := fun h => same (here.trans h.symm)
          simp [weightIn?, here, other]
        · simp only [weightIn?, List.find?_cons, here, decide_false] at ih ⊢
          exact ih

/-! ## Adding all rules -/

/-- The filename rules of a type, those with one key made one. -/
abbrev unite (rules : List GlobRule) : List GlobRule := rules.foldl addGlob []

/-- **One rule for each key.** -/
theorem map_key_unite (rules : List GlobRule) :
    (unite rules).map (·.key) = (rules.map (·.key)).eraseDups := by
  induction rules using List.reverseRecOn with
  | nil => rfl
  | append_singleton rules rule ih =>
      rw [unite, List.foldl_concat, map_key_addGlob, ih, List.map_append, List.map_singleton,
        eraseDups_concat]
      simp only [List.mem_eraseDups]

theorem max?_concat (weights : List Nat) (weight : Nat) :
    (weights ++ [weight]).max? = weights.max?.merge max (some weight) := by
  cases weights with
  | nil => rfl
  | cons first weights =>
      rw [List.cons_append, List.max?_cons', List.max?_cons', List.foldl_concat]
      rfl

/-- **The greatest weight declared for each key.** -/
theorem weightIn?_unite (rules : List GlobRule) (key : String × Bool) :
    weightIn? (unite rules) key = (declaredWeights rules key).max? := by
  induction rules using List.reverseRecOn with
  | nil => rfl
  | append_singleton rules rule ih =>
      rw [unite, List.foldl_concat, weightIn?_addGlob, ih, declaredWeights, declaredWeights,
        List.filter_append, List.map_append]
      by_cases asked : rule.key = key
      · rw [if_pos asked, List.filter_singleton, decide_eq_true asked]
        exact (max?_concat _ _).symm
      · rw [if_neg asked, List.filter_singleton, decide_eq_false asked]
        exact congrArg _ (List.append_nil _).symm

theorem weightIn?_of_mem (once : (rules.map (·.key)).Nodup) (mem : rule ∈ rules) :
    weightIn? rules rule.key = some rule.effectiveWeight := by
  induction rules with
  | nil => cases mem
  | cons known rules ih =>
      obtain ⟨new, once⟩ := List.nodup_cons.1 once
      rcases List.mem_cons.1 mem with rfl | later
      · simp [weightIn?]
      · have other : ¬ known.key = rule.key := fun same =>
          new (List.mem_map.2 ⟨rule, later, same.symm⟩)
        simpa [weightIn?, other] using ih once later

/-- A rule that merging leaves has the greatest weight declared for its key. -/
theorem max?_declaredWeights_of_mem (mem : rule ∈ unite rules) :
    (declaredWeights rules rule.key).max? = some rule.effectiveWeight := by
  rw [← weightIn?_unite]
  refine weightIn?_of_mem ?_ mem
  rw [map_key_unite]
  exact nodup_eraseDups _

/-- The rules that merging leaves, read off the keys. -/
theorem map_unite (rules : List GlobRule) :
    ((unite rules).map fun rule => (rule.key, rule.effectiveWeight)) =
      (rules.map (·.key)).eraseDups.map fun key =>
        (key, (declaredWeights rules key).max?.getD 0) := by
  rw [← map_key_unite, List.map_map]
  apply List.map_congr_left
  intro rule mem
  simp only [Function.comp_apply, max?_declaredWeights_of_mem mem, Option.getD_some]

/-! ## The filename rules of a document -/

variable (d : Descriptor)

/-- What tells the filename rules of a document apart: type, pattern, treatment of case. -/
def globKeys : List (String × String × Bool) :=
  ((d.written (·.globs)).map fun w => (w.1, w.2.key)).eraseDups

/-- The greatest weight that a document declares for a filename rule. -/
def greatestWeight (key : String × String × Bool) : Nat :=
  (((d.written (·.globs)).filter fun w => (w.1, w.2.key) = key).map
    (·.2.effectiveWeight)).max?.getD 0

variable {d}

theorem mem_globKeys {key : String × String × Bool} :
    key ∈ d.globKeys ↔ ∃ rule, (key.1, rule) ∈ d.written (·.globs) ∧ rule.key = key.2 := by
  simp only [globKeys, List.mem_eraseDups, List.mem_map, Prod.exists]
  constructor
  · rintro ⟨_, rule, mem, rfl⟩
    exact ⟨rule, mem, rfl⟩
  · rintro ⟨rule, mem, same⟩
    exact ⟨key.1, rule, mem, by rw [same]⟩

/-- No rule declares more than the greatest weight. -/
theorem effectiveWeight_le_greatestWeight {name : String} {rule : GlobRule}
    (mem : (name, rule) ∈ d.written (·.globs)) :
    rule.effectiveWeight ≤ d.greatestWeight (name, rule.key) := by
  apply List.le_max?_getD_of_mem
  exact List.mem_map.2 ⟨(name, rule), List.mem_filter.2 ⟨mem, decide_eq_true rfl⟩, rfl⟩

/-- The greatest weight is one that some rule declares. -/
theorem exists_greatestWeight {key : String × String × Bool} (mem : key ∈ d.globKeys) :
    ∃ rule, (key.1, rule) ∈ d.written (·.globs) ∧ rule.key = key.2 ∧
      rule.effectiveWeight = d.greatestWeight key := by
  obtain ⟨rule, written, same⟩ := mem_globKeys.1 mem
  have declared : rule.effectiveWeight ∈ ((d.written (·.globs)).filter fun w =>
      (w.1, w.2.key) = key).map (·.2.effectiveWeight) :=
    List.mem_map.2 ⟨(key.1, rule), List.mem_filter.2 ⟨written, by simp [same]⟩, rfl⟩
  obtain ⟨greatest, found⟩ := Option.isSome_iff_exists.1 (List.isSome_max?_of_mem declared)
  obtain ⟨w, inFilter, weight⟩ := List.mem_map.1 (List.max?_mem found)
  obtain ⟨written', same'⟩ := List.mem_filter.1 inFilter
  have key_eq : (w.1, w.2.key) = key := of_decide_eq_true same'
  refine ⟨w.2, ?_, congrArg Prod.snd key_eq, ?_⟩
  · rw [← key_eq]
    exact written'
  · rw [greatestWeight, found, weight]
    rfl

theorem greatestWeight_eq (name : String) (key : String × Bool) :
    d.greatestWeight (name, key) =
      (declaredWeights (d.said (·.globs) name) key).max?.getD 0 := by
  have split : ((d.written (·.globs)).filter fun w => (w.1, w.2.key) = (name, key)) =
      ((d.written (·.globs)).filter fun w => w.1 = name).filter fun w => w.2.key = key := by
    rw [List.filter_filter]
    apply List.filter_congr
    intro w _
    rw [Bool.eq_iff_iff]
    simp [and_comm]
  rw [greatestWeight, split, filter_written, List.filter_map, List.map_map, declaredWeights]
  rfl

/-- The keys of a document are those of its types. -/
theorem flatMap_keys_perm (d : Descriptor) :
    (d.typeNames.flatMap fun name =>
      ((d.said (·.globs) name).map (·.key)).eraseDups.map (name, ·)).Perm d.globKeys := by
  rw [List.perm_ext_iff_of_nodup]
  · rintro ⟨name, key⟩
    simp only [List.mem_flatMap, List.mem_map, List.mem_eraseDups, mem_globKeys, Prod.mk.injEq,
      mem_said]
    constructor
    · rintro ⟨name, -, key, ⟨rule, mem, rfl⟩, rfl, rfl⟩
      exact ⟨rule, mem, rfl⟩
    · rintro ⟨rule, mem, rfl⟩
      exact ⟨name, fst_mem_typeNames mem, rule.key, ⟨rule, mem, rfl⟩, rfl, rfl⟩
  · rw [List.nodup_flatMap]
    constructor
    · intro name _
      exact (nodup_eraseDups _).map fun _ _ same => congrArg Prod.snd same
    · refine nodup_typeNames.imp ?_
      intro name name' other key here there
      obtain ⟨_, -, rfl⟩ := List.mem_map.1 here
      obtain ⟨_, -, same⟩ := List.mem_map.1 there
      exact other (congrArg Prod.fst same).symm
  · exact nodup_eraseDups _

/-- **The filename rules of a document.** What is made of the rules that merging leaves is
what is made of the keys with their greatest weights, in some order. -/
theorem globs_perm {β : Type} (d : Descriptor) (make : String → String × Bool → Nat → β) :
    (d.typeNames.flatMap fun name =>
      (d.about name).globs.map fun rule => make name rule.key rule.effectiveWeight).Perm
    (d.globKeys.map fun key => make key.1 key.2 (d.greatestWeight key)) := by
  have each : ∀ name, ((d.about name).globs.map fun rule =>
        make name rule.key rule.effectiveWeight) =
      (((d.said (·.globs) name).map (·.key)).eraseDups.map (name, ·)).map fun key =>
        make key.1 key.2 (d.greatestWeight key) := by
    intro name
    have united := congrArg (List.map fun r : (String × Bool) × Nat => make name r.1 r.2)
      (map_unite (d.said (·.globs) name))
    simp only [List.map_map, Function.comp_def] at united ⊢
    simp only [about_globs, greatestWeight_eq]
    exact united
  simp only [each, ← List.map_flatMap]
  exact (flatMap_keys_perm d).map _

end MediaSniff.Descriptor
