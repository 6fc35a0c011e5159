/-
# MediaSniff.Proofs.Glob.Holdings — what an index holds

An index keeps of a literal rule its weight and its type, filed under its text in the table
of its shape and its treatment of case; that is enough to read the rule off again
(`Index.rules`). What an index of some rules holds are these rules, each as often as it is
given (`rules_ofList`): none is filed in a wrong place, or in two, or in none.
-/
import MediaSniff.Proofs.Glob.Lookup

set_option autoImplicit false

namespace MediaSniff.Glob

/-- The rules that a table of one shape and one treatment of case holds. -/
def Table.rules (t : Table) (shape : Bytes → Shape) (heeded : Bool) : List Glob :=
  t.toList.flatMap fun entry => entry.2.map fun c => ⟨shape entry.1, heeded, c.weight, c.type⟩

/-- The literal rules of one treatment of case. -/
def Tables.rules (t : Tables) (heeded : Bool) : List Glob :=
  t.exact.rules .exact heeded ++ t.leading.rules .leading heeded ++
    t.trailing.rules .trailing heeded

/-- All rules that an index holds. -/
def Index.rules (ix : Index) : List Glob :=
  ix.sensitive.rules true ++ ix.insensitive.rules false ++ ix.patterns

/-- A table reads off as the rules that its texts ask for, text by text. -/
theorem Table.rules_eq {text? : Shape → Option Bytes} {shape : Bytes → Shape}
    (inverse : ∀ s text, text? s = some text ↔ s = shape text) {globs : List Glob}
    {heeded : Bool} (alike : ∀ g ∈ globs, g.caseSensitive = heeded) :
    (Table.ofList text? globs).rules shape heeded =
      (Table.ofList text? globs).keys.flatMap fun text =>
        globs.filter fun g => text? g.shape = some text := by
  rw [Table.rules, ← Std.HashMap.map_fst_toList_eq_keys, List.flatMap_map]
  refine List.flatMap_congr fun entry mem => ?_
  have filed : entry.2 = (globs.filter fun g => text? g.shape = some entry.1).map candidate := by
    rw [← Table.find_ofList, Table.find, Std.HashMap.getD_eq_getD_getElem?,
      Std.HashMap.mem_toList_iff_getElem?_eq_some.1 mem]
    rfl
  rw [filed, List.map_map]
  refine (List.map_congr_left fun g mem => ?_).trans (List.map_id _)
  obtain ⟨given, asked⟩ := List.mem_filter.1 mem
  have shaped : g.shape = shape entry.1 := (inverse _ _).1 (of_decide_eq_true asked)
  rw [Function.comp_apply, ← shaped, ← alike g given]
  rfl

theorem Table.rules_ofList {text? : Shape → Option Bytes} {shape : Bytes → Shape}
    (inverse : ∀ s text, text? s = some text ↔ s = shape text) {globs : List Glob}
    {heeded : Bool} (alike : ∀ g ∈ globs, g.caseSensitive = heeded) :
    ((Table.ofList text? globs).rules shape heeded).Perm
      (globs.filter fun g => (text? g.shape).isSome) := by
  rw [rules_eq inverse alike]
  have texts : ∀ text, (globs.filter fun g => text? g.shape = some text) =
      (globs.filter fun g => (text? g.shape).isSome).filter fun g => text? g.shape = some text := by
    intro text
    rw [List.filter_filter]
    apply List.filter_congr
    intro g _
    by_cases asked : text? g.shape = some text <;> simp [asked]
  have once : ((Table.ofList text? globs).keys.map some).Nodup :=
    Std.HashMap.nodup_keys.map (Option.some_injective _)
  have parts := flatMap_filter_perm (fun g : Glob => text? g.shape) once
    (l := globs.filter fun g => (text? g.shape).isSome) ?_
  · simpa only [texts, List.flatMap_map] using parts
  · intro g mem
    obtain ⟨given, asks⟩ := List.mem_filter.1 mem
    obtain ⟨text, asked⟩ := Option.isSome_iff_exists.1 asks
    refine List.mem_map.2 ⟨text, Std.HashMap.mem_keys.2 ?_, asked.symm⟩
    -- Under the text of a given rule there is at least that rule.
    have here : g.candidate ∈ (Table.ofList text? globs).find text := by
      rw [Table.find_ofList]
      exact List.mem_map_of_mem (List.mem_filter.2 ⟨given, decide_eq_true asked⟩)
    by_contra absent
    rw [Table.find, Std.HashMap.getD_eq_fallback absent] at here
    cases here

theorem filter_or_perm {α : Type} {p q : α → Bool} {l : List α}
    (apart : ∀ a ∈ l, ¬ (p a = true ∧ q a = true)) :
    (l.filter p ++ l.filter q).Perm (l.filter fun a => p a || q a) := by
  have first : (l.filter fun a => p a || q a).filter p = l.filter p := by
    rw [List.filter_filter]
    apply List.filter_congr
    intro a _
    cases p a <;> simp
  have second : ((l.filter fun a => p a || q a).filter fun a => !p a) = l.filter q := by
    rw [List.filter_filter]
    apply List.filter_congr
    intro a mem
    have notBoth := apart a mem
    cases here : p a <;> cases there : q a <;> simp [here, there] at notBoth ⊢
  rw [← first, ← second]
  exact List.filter_append_perm _ _

theorem Tables.rules_ofList {globs : List Glob} {heeded : Bool}
    (alike : ∀ g ∈ globs, g.caseSensitive = heeded) :
    ((Tables.ofList globs).rules heeded).Perm (globs.filter fun g => !g.shape.isPattern) := by
  have exact : ∀ s text, Shape.exactText? s = some text ↔ s = .exact text := by
    intro s text
    cases s <;> simp [Shape.exactText?]
  have leading : ∀ s text, Shape.leadingText? s = some text ↔ s = .leading text := by
    intro s text
    cases s <;> simp [Shape.leadingText?]
  have trailing : ∀ s text, Shape.trailingText? s = some text ↔ s = .trailing text := by
    intro s text
    cases s <;> simp [Shape.trailingText?]
  have three := ((Table.rules_ofList exact alike).append (Table.rules_ofList leading alike)).append
    (Table.rules_ofList trailing alike)
  refine three.trans (((filter_or_perm ?_).append_right _).trans ((filter_or_perm ?_).trans ?_))
  · rintro ⟨shape, _, _, _⟩ _
    cases shape <;> simp [Shape.exactText?, Shape.leadingText?]
  · rintro ⟨shape, _, _, _⟩ _
    cases shape <;> simp [Shape.exactText?, Shape.leadingText?, Shape.trailingText?]
  · refine List.Perm.of_eq (List.filter_congr ?_)
    rintro ⟨shape, _, _, _⟩ _
    cases shape <;> rfl

/-- **What an index holds** are the rules it is made of. -/
theorem Index.rules_ofList (globs : List Glob) (unknown : TypeId) :
    (Index.ofList globs unknown).rules.Perm globs := by
  have sorted : (globs.mergeSort bucketOrder).Perm globs := List.mergeSort_perm _ _
  have heeded : ((Tables.ofList
      ((globs.mergeSort bucketOrder).filter (·.caseSensitive))).rules true).Perm _ :=
    Tables.rules_ofList (by simp)
  have ignored : ((Tables.ofList
      ((globs.mergeSort bucketOrder).filter (!·.caseSensitive))).rules false).Perm _ :=
    Tables.rules_ofList (by simp)
  have swap : ∀ p q : Glob → Bool, ((globs.mergeSort bucketOrder).filter p).filter q =
      ((globs.mergeSort bucketOrder).filter q).filter p := by
    intro p q
    simp only [List.filter_filter, Bool.and_comm]
  rw [swap] at heeded ignored
  have literal := (heeded.append ignored).trans (List.filter_append_perm _ _)
  have whole : ((globs.mergeSort bucketOrder).filter (!·.shape.isPattern) ++
      (globs.mergeSort bucketOrder).filter (·.shape.isPattern)).Perm
        (globs.mergeSort bucketOrder) :=
    List.perm_append_comm.trans (List.filter_append_perm _ _)
  exact (literal.append_right _).trans (whole.trans sorted)

end MediaSniff.Glob
