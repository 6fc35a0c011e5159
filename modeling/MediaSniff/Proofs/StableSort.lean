/-
# MediaSniff.Proofs.StableSort — what a stable sort keeps

Tables are ordered by sorting a list that is already in some order by a coarser one:
candidates by weight, signatures by the cost of trying them. Members that the coarser
order leaves level must then stay as they stood. `filter_level_mergeSort` says this of
all members level with a given one, and `pairwise_mergeSort_refine` turns it into a
statement about pairs: what held of every two members before the sort still holds of
every two that the sort leaves level. Where only the first member of some kind counts,
`find?_mergeSort` tells which one it is, and `exists_find?_mergeSort` that it is the least
of its kind, places counting where the order leaves members level.
-/
import Mathlib.Data.List.Basic

set_option autoImplicit false

namespace MediaSniff.StableSort

variable {α : Type} {le : α → α → Bool}

/-- Whether an order leaves two members level. -/
def level (le : α → α → Bool) (a b : α) : Bool := le a b && le b a

/-- **Stability.** The members level with a given one are the same before and after the
sort, in the same order. -/
theorem filter_level_mergeSort
    (trans : ∀ a b c, le a b = true → le b c = true → le a c = true)
    (total : ∀ a b, (le a b || le b a) = true) (a : α) (l : List α) :
    (l.mergeSort le).filter (level le a) = l.filter (level le a) := by
  have inOrder : (l.filter (level le a)).Pairwise (le · ·) := by
    rw [List.pairwise_filter]
    apply List.pairwise_of_forall
    intro x y hx hy
    simp only [level, Bool.and_eq_true] at hx hy
    exact trans x a y hx.2 hy.1
  have kept : (l.filter (level le a)).Sublist (l.mergeSort le) :=
    List.sublist_mergeSort trans total inOrder List.filter_sublist
  have again : (l.filter (level le a)).Sublist ((l.mergeSort le).filter (level le a)) := by
    simpa using kept.filter (level le a)
  have same : (l.filter (level le a)).length = ((l.mergeSort le).filter (level le a)).length :=
    ((List.mergeSort_perm l le).filter (level le a)).length_eq.symm
  exact (again.eq_of_length same).symm

/-- **A stable sort refines.** Two members of the sorted list are in the order of the sort,
and where they are level, what held of any two members before still holds of them. -/
theorem pairwise_mergeSort_refine
    (trans : ∀ a b c, le a b = true → le b c = true → le a c = true)
    (total : ∀ a b, (le a b || le b a) = true) {R : α → α → Prop} {l : List α}
    (before : l.Pairwise R) :
    (l.mergeSort le).Pairwise fun a b => le a b = true ∧ (le b a = true → R a b) := by
  rw [List.pairwise_iff_forall_sublist]
  intro a b pair
  have forward : le a b = true :=
    List.pairwise_iff_forall_sublist.1 (List.pairwise_mergeSort trans total l) pair
  refine ⟨forward, fun backward => ?_⟩
  have self : le a a = true := by simpa using total a a
  have stays : [a, b].Sublist ((l.mergeSort le).filter (level le a)) := by
    simpa [level, forward, backward, self] using pair.filter (level le a)
  rw [filter_level_mergeSort trans total] at stays
  exact List.pairwise_iff_forall_sublist.1 before (stays.trans List.filter_sublist)

/-- **The first of a kind.** A member that precedes all of its kind in the order of the sort,
and stands first among those of them that are level with it, is the first of its kind after
the sort. -/
theorem find?_mergeSort
    (trans : ∀ a b c, le a b = true → le b c = true → le a c = true)
    (total : ∀ a b, (le a b || le b a) = true) {kind : α → Bool} {l : List α} {a : α}
    (least : ∀ b ∈ l, kind b = true → le a b = true)
    (first : (l.filter (level le a)).find? kind = some a) :
    (l.mergeSort le).find? kind = some a := by
  have kept : ((l.mergeSort le).filter (level le a)).find? kind = some a := by
    rwa [filter_level_mergeSort trans total]
  have mem : a ∈ l.mergeSort le := (List.mem_filter.1 (List.mem_of_find?_eq_some kept)).1
  obtain ⟨front, found⟩ : ∃ front, (l.mergeSort le).find? kind = some front :=
    Option.isSome_iff_exists.1 (List.find?_isSome.2 ⟨a, mem, List.find?_some kept⟩)
  obtain ⟨holds, earlier, later, sorted, others⟩ := List.find?_eq_some_iff_append.1 found
  have forward : le a front = true :=
    least front (List.mem_mergeSort.1 (List.mem_of_find?_eq_some found)) holds
  have backward : le front a = true := by
    have ordered := List.pairwise_mergeSort trans total l
    rw [sorted] at mem ordered
    rcases List.mem_append.1 mem with inEarlier | inRest
    · exact absurd (List.find?_some kept) (by simpa using others a inEarlier)
    · rcases List.mem_cons.1 inRest with rfl | inLater
      · exact forward
      · exact (List.pairwise_cons.1 (List.pairwise_append.1 ordered).2.1).1 a inLater
  have here : ((l.mergeSort le).filter (level le a)).find? kind = some front := by
    have isLevel : level le a front = true := by simp [level, forward, backward]
    have before : (earlier.filter (level le a)).find? kind = none :=
      List.find?_eq_none.2 fun b inFilter => by
        simpa using others b (List.mem_filter.1 inFilter).1
    rw [sorted, List.filter_append, List.find?_append, before, List.filter_cons_of_pos isLevel,
      List.find?_cons_of_pos holds, Option.none_or]
  rw [found, ← here, kept]

/-- **The least of a kind.** If there are members of a kind, the first of them after the sort
precedes them all, and of those level with it none stood in front of it. -/
theorem exists_find?_mergeSort
    (trans : ∀ a b c, le a b = true → le b c = true → le a c = true)
    (total : ∀ a b, (le a b || le b a) = true) {kind : α → Bool} {l : List α}
    (given : ∃ a ∈ l, kind a = true) :
    ∃ (k : Nat) (a : α), l[k]? = some a ∧ kind a = true ∧ (l.mergeSort le).find? kind = some a ∧
      ∀ (j : Nat) (b : α), l[j]? = some b → kind b = true →
        le a b = true ∧ (le b a = true → k ≤ j) := by
  -- Members are sorted together with their places, which the order does not look at.
  let numbered := l.zipIdx.mergeSort fun p q => le p.1 q.1
  have sorted : numbered.map Prod.fst = l.mergeSort le := by
    have unnumbered : l.zipIdx.map Prod.fst = l := List.zipIdx_map_fst 0 l
    rw [← unnumbered]
    exact List.map_mergeSort fun p _ q _ => rfl
  have refined : numbered.Pairwise fun p q =>
      le p.1 q.1 = true ∧ (le q.1 p.1 = true → p.2 < q.2) := by
    apply pairwise_mergeSort_refine
    · exact fun p q r => trans p.1 q.1 r.1
    · exact fun p q => total p.1 q.1
    · rw [← List.pairwise_map, List.zipIdx_map_snd]
      exact List.pairwise_lt_range'
  have mem_numbered : ∀ (j : Nat) (b : α), (b, j) ∈ numbered ↔ l[j]? = some b := by
    intro j b
    rw [List.mem_mergeSort, List.mk_mem_zipIdx_iff_getElem?]
  obtain ⟨a', mem, holds'⟩ := given
  obtain ⟨j', inside, rfl⟩ := List.mem_iff_getElem.1 mem
  obtain ⟨⟨a, k⟩, found⟩ : ∃ p, numbered.find? (kind ∘ Prod.fst) = some p :=
    Option.isSome_iff_exists.1 (List.find?_isSome.2
      ⟨_, (mem_numbered j' _).2 (List.getElem?_eq_getElem inside), holds'⟩)
  obtain ⟨holds, earlier, later, split, others⟩ := List.find?_eq_some_iff_append.1 found
  refine ⟨k, a, (mem_numbered k a).1 (List.mem_of_find?_eq_some found), holds, ?_, ?_⟩
  · rw [← sorted, List.find?_map, found, Option.map_some]
  · intro j b here holdsB
    have memB : (b, j) ∈ numbered := (mem_numbered j b).2 here
    rw [split] at memB refined
    rcases List.mem_append.1 memB with inEarlier | inRest
    · exact absurd holdsB (by simpa using others (b, j) inEarlier)
    · rcases List.mem_cons.1 inRest with same | inLater
      · cases same
        exact ⟨by simpa using total a a, fun _ => Nat.le_refl k⟩
      · have behind := (List.pairwise_cons.1 (List.pairwise_append.1 refined).2.1).1 _ inLater
        exact ⟨behind.1, fun backward => Nat.le_of_lt (behind.2 backward)⟩

end MediaSniff.StableSort
