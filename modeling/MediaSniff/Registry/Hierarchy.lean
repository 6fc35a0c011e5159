/-
# MediaSniff.Registry.Hierarchy — superclasses of superclasses

The direct superclasses make the types a graph, in which three questions are asked:
whether one type is another or below it (`isA`), which types stand above a type, nearest
first (`ancestors`), and whether some type stands above itself (`findCycle?`). The walks
end on any graph, with cycles and with edges to numbers that are no types: `unseen`
counts the mentioned types that a walk has not met, and each step lowers it or shortens
what is left to do.
-/
import MediaSniff.Registry.Basic

set_option autoImplicit false

namespace MediaSniff

/-- How many of some types have not been met. -/
def unseen (types seen : List TypeId) : Nat := types.countP fun id => !seen.contains id

theorem unseen_le {types seen seen' : List TypeId} (sub : ∀ id ∈ seen, id ∈ seen') :
    unseen types seen' ≤ unseen types seen := by
  apply List.countP_mono_left
  intro id _ h
  simp only [List.contains_eq_mem, Bool.not_eq_true', decide_eq_false_iff_not] at h ⊢
  exact fun hm => h (sub id hm)

theorem unseen_lt {types seen seen' : List TypeId} {t : TypeId}
    (sub : ∀ id ∈ seen, id ∈ seen') (mem : t ∈ types) (fresh : t ∉ seen)
    (met : t ∈ seen') : unseen types seen' < unseen types seen := by
  induction types with
  | nil => simp at mem
  | cons a types ih =>
      have le : unseen types seen' ≤ unseen types seen := unseen_le sub
      simp only [unseen, List.countP_cons, List.contains_eq_mem] at ih le ⊢
      by_cases h : a = t
      · subst h
        simp [fresh, met]
        omega
      · have lt := ih (by simpa [Ne.symm h] using mem)
        by_cases ha : a ∈ seen
        · simp [ha, sub a ha]
          exact lt
        · split <;> simp [ha] <;> omega

namespace Registry

/-- All numbers that the registry speaks of. -/
def mentioned (r : Registry) : List TypeId :=
  (List.range r.size).map TypeId.mk ++ r.records.toList.flatMap (·.superclasses)

theorem mem_mentioned_of_lt {r : Registry} {id : TypeId} (h : id.index < r.size) :
    id ∈ r.mentioned := by
  simp only [mentioned, List.mem_append, List.mem_map, List.mem_range]
  exact Or.inl ⟨id.index, h, rfl⟩

theorem lt_size_of_parents_ne_nil {r : Registry} {id : TypeId} (h : r.parents id ≠ []) :
    id.index < r.size := by
  unfold parents get? at h
  by_cases hlt : id.index < r.records.size
  · exact hlt
  · simp [hlt] at h

theorem mem_mentioned_of_mem_parents {r : Registry} {id p : TypeId} (h : p ∈ r.parents id) :
    p ∈ r.mentioned := by
  have hlt : id.index < r.records.size := lt_size_of_parents_ne_nil (List.ne_nil_of_mem h)
  simp only [parents, get?, hlt, getElem?_pos, Option.elim_some] at h
  simp only [mentioned, List.mem_append, List.mem_flatMap]
  exact Or.inr ⟨_, by simp, h⟩

/-- Whether a type is a superclass, at any distance, of one of the types in `rest`,
going only through types that are not in `visited`. -/
def reaches (r : Registry) (target : TypeId) (visited : List TypeId) : List TypeId → Bool
  | [] => false
  | id :: rest =>
      if id ∈ visited ∨ r.parents id = [] then r.reaches target visited rest
      else
        (r.parents id).contains target ||
          r.reaches target (id :: visited) (r.parents id ++ rest)
termination_by rest => (unseen r.mentioned visited, rest.length)
decreasing_by
  · exact Prod.Lex.right _ (by simp)
  · rename_i h
    simp only [not_or] at h
    exact Prod.Lex.left _ _ (unseen_lt (fun _ hm => List.mem_cons_of_mem _ hm)
      (mem_mentioned_of_lt (lt_size_of_parents_ne_nil h.2)) h.1 List.mem_cons_self)

/-- Whether a type is another or below it. -/
def isA (r : Registry) (child ancestor : TypeId) : Bool :=
  child == ancestor || r.reaches ancestor [] [child]

/-- The types of a list that have not been seen, each once. -/
def freshOnes (seen : List TypeId) : List TypeId → List TypeId
  | [] => []
  | p :: ps => if seen.contains p then freshOnes seen ps else p :: freshOnes (p :: seen) ps

theorem mem_freshOnes {seen ps : List TypeId} {p : TypeId} (h : p ∈ freshOnes seen ps) :
    p ∈ ps ∧ p ∉ seen := by
  induction ps generalizing seen with
  | nil => simp [freshOnes] at h
  | cons a ps ih =>
      unfold freshOnes at h
      split at h
      · exact ⟨List.mem_cons_of_mem _ (ih h).1, (ih h).2⟩
      · rename_i hc
        rcases List.mem_cons.1 h with rfl | h
        · exact ⟨List.mem_cons_self, by simpa using hc⟩
        · have := ih h
          exact ⟨List.mem_cons_of_mem _ this.1, fun hm => this.2 (List.mem_cons_of_mem _ hm)⟩

/-- The types above those in the queue that have not been seen, level by level. -/
def ancestorsFrom (r : Registry) (seen : List TypeId) : (queue : List TypeId) → List TypeId
  | [] => []
  | id :: queue =>
      let fresh := freshOnes seen (r.parents id)
      fresh ++ r.ancestorsFrom (seen ++ fresh) (queue ++ fresh)
termination_by queue => (unseen r.mentioned seen, queue.length)
decreasing_by
  by_cases h : freshOnes seen (r.parents id) = []
  · simp only [h, List.append_nil]
    exact Prod.Lex.right _ (by simp)
  · obtain ⟨p, hp⟩ := List.exists_mem_of_ne_nil _ h
    have := mem_freshOnes hp
    exact Prod.Lex.left _ _ (unseen_lt (fun _ hm => List.mem_append_left _ hm)
      (mem_mentioned_of_mem_parents this.1) this.2 (List.mem_append_right _ hp))

/-- All types above a type, nearest first. -/
def ancestors (r : Registry) (id : TypeId) : List TypeId := r.ancestorsFrom [id] [id]

/-- A type on the way that is being followed, with those of its superclasses that have
not been tried. -/
abbrev Visit := TypeId × List TypeId

/-- How much is left to try on a way. -/
def remaining : (way : List Visit) → Nat
  | [] => 0
  | v :: way => v.2.length + 1 + remaining way

/-- Follow a way upwards. `finished` holds the types from which no cycle can be reached.
The answer is a type on a cycle, as an error, or all types finished in the end. -/
def followUp (r : Registry) (finished : List TypeId) :
    (way : List Visit) → Except TypeId (List TypeId)
  | [] => .ok finished
  | (id, []) :: way => r.followUp (id :: finished) way
  | (id, p :: ps) :: way =>
      if p ∈ id :: way.map (·.1) then .error p
      else if p ∈ finished ∨ r.size ≤ p.index then r.followUp finished ((id, ps) :: way)
      else r.followUp finished ((p, r.parents p) :: (id, ps) :: way)
termination_by way => (unseen r.mentioned (finished ++ way.map (·.1)), remaining way)
decreasing_by
  · have same : unseen r.mentioned (id :: finished ++ way.map (·.1)) =
        unseen r.mentioned (finished ++ ((id, []) :: way).map (·.1)) := by
      apply Nat.le_antisymm <;> apply unseen_le <;> intro x hx <;>
        simp only [List.cons_append, List.map_cons, List.mem_append, List.mem_cons] at hx ⊢ <;>
        grind
    rw [same]
    exact Prod.Lex.right _ (by simp [remaining])
  · exact Prod.Lex.right _ (by simp [remaining])
  · rename_i h1 h2
    refine Prod.Lex.left _ _ (unseen_lt (t := p) ?_ (mem_mentioned_of_lt ?_) ?_ ?_)
    · intro x hx
      simp only [List.map_cons, List.mem_append, List.mem_cons] at hx ⊢
      grind
    · omega
    · simp only [List.map_cons, List.mem_append, List.mem_cons, not_or] at h1 h2 ⊢
      exact ⟨h2.1, h1.1, h1.2⟩
    · simp

/-- Look for a cycle that can be reached from one of the given types. -/
def cycleAbove? (r : Registry) (finished : List TypeId) : List TypeId → Option TypeId
  | [] => none
  | id :: ids =>
      if finished.contains id then r.cycleAbove? finished ids
      else match r.followUp finished [(id, r.parents id)] with
        | .error p => some p
        | .ok finished => r.cycleAbove? finished ids

/-- A type that stands above itself, if there is one. -/
def findCycle? (r : Registry) : Option TypeId :=
  r.cycleAbove? [] ((List.range r.size).map TypeId.mk)

end Registry

end MediaSniff
