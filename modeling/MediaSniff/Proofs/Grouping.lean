/-
# MediaSniff.Proofs.Grouping — nothing lost and nothing twice

`distinct` goes through a list once with a set of what it has met. What it keeps are the
members of the list (`mem_distinct`), each once (`nodup_distinct`). Sets and tables only
make it fast: `distinct_eq_eraseDups` and `groups_eq` say the same of lists alone. A list
that is taken apart by keys and put together again key by key is the list, in another
order (`flatMap_filter_perm`). A table filled from a list holds what the list has last
(`getElem?_foldl_insert`).
-/
import MediaSniff.Grouping
import Mathlib.Data.List.Basic

set_option autoImplicit false

namespace MediaSniff

section Once

variable {κ : Type} [BEq κ] [LawfulBEq κ]

theorem nodup_eraseDups (ks : List κ) : ks.eraseDups.Nodup := by
  cases ks with
  | nil => exact List.nodup_nil
  | cons k ks =>
      rw [List.eraseDups_cons, List.nodup_cons, List.mem_eraseDups]
      exact ⟨by simp, nodup_eraseDups _⟩
termination_by ks.length
decreasing_by
  exact Nat.lt_succ_of_le (List.length_filter_le _ _)

/-- Where no member stands twice, nothing is dropped. -/
theorem eraseDups_eq_self {ks : List κ} (once : ks.Nodup) : ks.eraseDups = ks := by
  induction ks with
  | nil => rfl
  | cons k ks ih =>
      obtain ⟨fresh, once⟩ := List.nodup_cons.1 once
      have others : ks.filter (fun k' => !k' == k) = ks := by
        rw [List.filter_eq_self]
        intro k' mem
        have other : k' ≠ k := fun same => fresh (same ▸ mem)
        simpa using other
      rw [List.eraseDups_cons, others, ih once]

/-- A member that is there already adds nothing. -/
theorem eraseDups_append_cons {known : List κ} {k : κ} (mem : k ∈ known) (rest : List κ) :
    (known ++ k :: rest).eraseDups = (known ++ rest).eraseDups := by
  have dropped : (k :: rest).removeAll known = rest.removeAll known := by
    simp [List.removeAll, mem]
  rw [List.eraseDups_append, List.eraseDups_append, dropped]

/-- A new member is put behind the others. -/
theorem eraseDups_concat [DecidableEq κ] (ks : List κ) (k : κ) :
    (ks ++ [k]).eraseDups = if k ∈ ks then ks.eraseDups else ks.eraseDups ++ [k] := by
  split
  · rename_i known
    rw [eraseDups_append_cons known, List.append_nil]
  · rename_i new
    have stays : [k].removeAll ks = [k] := by simpa [List.removeAll] using new
    rw [List.eraseDups_append, stays]
    rfl

/-- Where no member stands twice, its place is told by the member. -/
theorem zipIdx_eq_map_idxOf {ks : List κ} (once : ks.Nodup) :
    ks.zipIdx = ks.map fun k => (k, ks.idxOf k) := by
  apply List.ext_getElem
  · rw [List.length_zipIdx, List.length_map]
  · intro i _ inside
    rw [List.length_map] at inside
    rw [List.getElem_zipIdx, List.getElem_map, once.idxOf_getElem i inside, Nat.zero_add]

end Once

theorem length_le_one_iff_of_nodup {κ : Type} {ks : List κ} (once : ks.Nodup) :
    ks.length ≤ 1 ↔ ∀ k ∈ ks, ∀ k' ∈ ks, k = k' := by
  match ks with
  | [] => simp
  | [k] => simp
  | k :: k' :: ks =>
      refine iff_of_false (by simp) fun same => ?_
      exact (List.nodup_cons.1 once).1 (same k (by simp) k' (by simp) ▸ List.mem_cons_self)

section Distinct

variable {κ : Type} [BEq κ] [LawfulBEq κ] [Hashable κ]

theorem mem_distinctAfter {seen : Std.HashSet κ} {ks : List κ} {k : κ} :
    k ∈ distinctAfter seen ks ↔ k ∈ ks ∧ k ∉ seen := by
  induction ks generalizing seen with
  | nil => simp [distinctAfter]
  | cons a ks ih =>
      unfold distinctAfter
      split
      · rename_i met
        have old : a ∈ seen := Std.HashSet.contains_iff_mem.1 met
        rw [ih, List.mem_cons]
        constructor
        · rintro ⟨inRest, fresh⟩
          exact ⟨Or.inr inRest, fresh⟩
        · rintro ⟨rfl | inRest, fresh⟩
          · exact absurd old fresh
          · exact ⟨inRest, fresh⟩
      · rename_i unmet
        have new : a ∉ seen := fun old => unmet (Std.HashSet.contains_iff_mem.2 old)
        rw [List.mem_cons, ih, List.mem_cons, Std.HashSet.mem_insert]
        by_cases same : a = k
        · subst same
          simp [new]
        · have other : ¬ k = a := fun h => same h.symm
          simp [same, other]

theorem nodup_distinctAfter (seen : Std.HashSet κ) (ks : List κ) :
    (distinctAfter seen ks).Nodup := by
  induction ks generalizing seen with
  | nil => exact List.nodup_nil
  | cons a ks ih =>
      unfold distinctAfter
      split
      · exact ih seen
      · refine List.nodup_cons.2 ⟨fun later => ?_, ih _⟩
        exact (mem_distinctAfter.1 later).2 Std.HashSet.mem_insert_self

@[simp] theorem mem_distinct {ks : List κ} {k : κ} : k ∈ distinct ks ↔ k ∈ ks := by
  rw [distinct, mem_distinctAfter]
  simp

theorem nodup_distinct (ks : List κ) : (distinct ks).Nodup := nodup_distinctAfter ∅ ks

theorem distinctAfter_eq_eraseDups (seen : Std.HashSet κ) (ks : List κ) :
    distinctAfter seen ks = (ks.filter fun k => !seen.contains k).eraseDups := by
  induction ks generalizing seen with
  | nil => rfl
  | cons a ks ih =>
      unfold distinctAfter
      split
      · rename_i met
        rw [ih, List.filter_cons_of_neg (by simp [met])]
      · rename_i unmet
        rw [ih, List.filter_cons_of_pos (by simp [unmet]), List.eraseDups_cons, List.filter_filter]
        congr 2
        apply List.filter_congr
        intro k _
        rw [Std.HashSet.contains_insert, Bool.not_or, BEq.comm]

/-- Without a set: the first of equal members stays, and the others are dropped. -/
theorem distinct_eq_eraseDups (ks : List κ) : distinct ks = ks.eraseDups := by
  rw [distinct, distinctAfter_eq_eraseDups]
  simp

end Distinct

section Groups

variable {α κ : Type} [BEq κ] [LawfulBEq κ] [Hashable κ] [LawfulHashable κ]

theorem getD_filed (key : α → κ) (members : List α) (k : κ) :
    (filed key members).getD k [] = members.filter fun a => key a == k := by
  induction members with
  | nil => exact Std.HashMap.getD_empty
  | cons a members ih =>
      rw [filed, List.foldr_cons, ← filed, Std.HashMap.getD_insert]
      by_cases same : key a = k
      · subst same
        simp [ih]
      · simp [same, ih]

/-- Without tables: under each key, in the order in which keys first appear, stand the
members that have it. -/
theorem groups_eq (key : α → κ) (members : List α) :
    groups key members =
      (members.map key).eraseDups.map fun k => (k, members.filter fun a => key a == k) := by
  rw [groups, distinct_eq_eraseDups]
  simp only [getD_filed]

end Groups

section Filled

variable {α κ β : Type} [BEq κ] [LawfulBEq κ] [Hashable κ] [LawfulHashable κ]

/-- A table that is filled from a list holds the last entry of each key. -/
theorem getElem?_foldl_insert (key : α → κ) (value : α → β) (members : List α)
    (table : Std.HashMap κ β) (k : κ) :
    (members.foldl (fun table a => table.insert (key a) (value a)) table)[k]? =
      ((members.reverse.find? fun a => key a == k).map value).or table[k]? := by
  induction members generalizing table with
  | nil => rfl
  | cons a members ih =>
      rw [List.foldl_cons, ih, List.reverse_cons, List.find?_append, Option.map_or,
        Option.or_assoc, Std.HashMap.getElem?_insert, List.find?_singleton]
      by_cases same : (key a == k) = true
      · rw [if_pos same, if_pos same]
        rfl
      · rw [if_neg same, if_neg same]
        rfl

end Filled

section Parts

variable {α κ : Type} [DecidableEq κ]

/-- A list taken apart by keys and put together again. Every member must have one of the
keys, and no key may stand twice. -/
theorem flatMap_filter_perm (key : α → κ) {keys : List κ} (once : keys.Nodup) {l : List α}
    (covered : ∀ a ∈ l, key a ∈ keys) :
    (keys.flatMap fun k => l.filter fun a => key a = k).Perm l := by
  induction keys generalizing l with
  | nil =>
      cases l with
      | nil => exact List.Perm.refl _
      | cons a l => exact absurd (covered a List.mem_cons_self) List.not_mem_nil
  | cons k keys ih =>
      obtain ⟨fresh, once⟩ := List.nodup_cons.1 once
      -- The other keys find their members among those that do not have this one.
      have others : (keys.flatMap fun k' => l.filter fun a => key a = k') =
          keys.flatMap fun k' => (l.filter fun a => !decide (key a = k)).filter
            fun a => key a = k' := by
        rw [List.flatMap_def, List.flatMap_def]
        congr 1
        apply List.map_congr_left
        intro k' mem
        rw [List.filter_filter]
        apply List.filter_congr
        intro a _
        by_cases h : key a = k'
        · have : key a ≠ k := fun h' => fresh (h' ▸ h ▸ mem)
          simp [h, h ▸ this]
        · simp [h]
      rw [List.flatMap_cons, others]
      refine ((ih once fun a mem => ?_).append_left _).trans (List.filter_append_perm _ l)
      obtain ⟨mem, different⟩ := List.mem_filter.1 mem
      rcases List.mem_cons.1 (covered a mem) with same | inKeys
      · simp [same] at different
      · exact inKeys

end Parts

end MediaSniff
