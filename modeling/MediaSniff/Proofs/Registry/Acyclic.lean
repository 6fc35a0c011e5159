/-
# MediaSniff.Proofs.Registry.Acyclic — where no cycle is reported there is none

The search for a cycle finishes a type when all its superclasses are finished. So the types
that are finished stand in an order in which every superclass comes before its subclasses
(`Finished`), and in such an order no type stands above itself (`Finished.not_transGen`).

`Unfinished` is what every step keeps of the way that is being followed. Of a type on it, a
superclass is left to try, or finished, or no type of the registry, or it is the type that is
followed from there, and that will be finished before it. So when the search is over, all
types are finished, and a cycle is reported exactly if there is one
(`findCycle?_eq_none_iff`).

A search is over when nothing is left to do. `cycleWithin` counts its rounds: at most one for
each edge and two for each type, one to start from it and one to finish it.
-/
import MediaSniff.Proofs.Registry.Closure

set_option autoImplicit false

namespace MediaSniff.Registry

open Relation (ReflTransGen TransGen)

variable {r : Registry} {finished : List TypeId} {way : List Visit} {id p : TypeId}

/-! ## Existing types -/

theorem lt_size_of_edge (edge : r.Edge id p) : id.index < r.size :=
  lt_size_of_parents_ne_nil (List.ne_nil_of_mem edge)

theorem lt_size_of_transGen (path : TransGen r.Edge id p) : id.index < r.size := by
  obtain ⟨p', edge, -⟩ := TransGen.head'_iff.1 path
  exact lt_size_of_edge edge

/-- An edge between two types that the registry has. -/
def InnerEdge (r : Registry) (child parent : TypeId) : Prop :=
  r.Edge child parent ∧ child.index < r.size ∧ parent.index < r.size

/-- A path never leaves the registry before its end. -/
theorem transGen_innerEdge (path : TransGen r.Edge id p) (known : p.index < r.size) :
    TransGen r.InnerEdge id p := by
  induction path using TransGen.head_induction_on with
  | single edge => exact .single ⟨edge, lt_size_of_edge edge, known⟩
  | head edge path ih => exact .head ⟨edge, lt_size_of_edge edge, lt_size_of_transGen path⟩ ih

/-- So a cycle lies in the registry. -/
theorem transGen_innerEdge_self_iff : TransGen r.InnerEdge id id ↔ TransGen r.Edge id id :=
  ⟨fun cycle => TransGen.mono (fun _ _ edge => edge.1) _ _ cycle,
    fun cycle => transGen_innerEdge cycle (lt_size_of_transGen cycle)⟩

/-! ## What is finished -/

/-- Types in the order in which they were finished, the last one first. Every superclass of
a type was finished before it, unless it is no type of the registry. -/
inductive Finished (r : Registry) : List TypeId → Prop
  | nil : Finished r []
  | cons {id : TypeId} {finished : List TypeId} (new : id ∉ finished)
      (above : ∀ p, r.Edge id p → p ∈ finished ∨ r.size ≤ p.index)
      (rest : Finished r finished) : Finished r (id :: finished)

namespace Finished

theorem mem_of_edge (all : r.Finished finished) (mem : id ∈ finished) (edge : r.Edge id p) :
    p ∈ finished ∨ r.size ≤ p.index := by
  induction all with
  | nil => cases mem
  | @cons last finished new above rest ih =>
      refine Or.imp_left (List.mem_cons_of_mem last) ?_
      rcases List.mem_cons.1 mem with rfl | old
      · exact above p edge
      · exact ih old

/-- No path leads from what is finished to what is not. -/
theorem mem_of_reflTransGen (all : r.Finished finished) (path : ReflTransGen r.Edge id p)
    (start : id ∈ finished ∨ r.size ≤ id.index) : p ∈ finished ∨ r.size ≤ p.index := by
  induction path with
  | refl => exact start
  | tail _ edge ih =>
      rcases ih with mem | unknown
      · exact all.mem_of_edge mem edge
      · exact absurd (lt_size_of_edge edge) (Nat.not_lt.2 unknown)

/-- **No finished type stands above itself.** -/
theorem not_transGen (all : r.Finished finished) (mem : id ∈ finished) :
    ¬ TransGen r.Edge id id := by
  induction all with
  | nil => cases mem
  | @cons last finished new above rest ih =>
      rcases List.mem_cons.1 mem with rfl | old
      · intro cycle
        obtain ⟨p, edge, onward⟩ := TransGen.head'_iff.1 cycle
        rcases rest.mem_of_reflTransGen onward (above p edge) with old | unknown
        · exact new old
        · exact absurd (lt_size_of_edge edge) (Nat.not_lt.2 unknown)
      · exact ih old

end Finished

/-! ## What is left to finish -/

/-- A way whose types have to be finished one after another, its end first. -/
inductive Unfinished (r : Registry) : (finished : List TypeId) → (way : List Visit) → Prop
  | nil {finished : List TypeId} : Unfinished r finished []
  | cons {finished untried : List TypeId} {id : TypeId} {way : List Visit}
      (new : id ∉ finished)
      (tried : ∀ p, r.Edge id p → p ∈ untried ∨ p ∈ finished ∨ r.size ≤ p.index)
      (rest : Unfinished r (id :: finished) way) : Unfinished r finished ((id, untried) :: way)

namespace Unfinished

/-- Types that are not on the way may be finished meanwhile. -/
theorem mono {finished' : List TypeId} (open_ : r.Unfinished finished way)
    (sub : ∀ id ∈ finished, id ∈ finished')
    (apart : ∀ v ∈ way, v.1 ∈ finished' → v.1 ∈ finished) : r.Unfinished finished' way := by
  induction open_ generalizing finished' with
  | nil => exact .nil
  | @cons finished untried id way new tried rest ih =>
      refine .cons (fun mem => new (apart _ List.mem_cons_self mem)) ?_ (ih ?_ ?_)
      · intro p edge
        exact (tried p edge).imp_right (Or.imp_left (sub p))
      · intro id' mem
        rcases List.mem_cons.1 mem with rfl | old
        · exact List.mem_cons_self
        · exact List.mem_cons_of_mem _ (sub id' old)
      · intro v mem there
        rcases List.mem_cons.1 there with same | old
        · exact same ▸ List.mem_cons_self
        · exact List.mem_cons_of_mem _ (apart v (List.mem_cons_of_mem _ mem) old)

variable {untried : List TypeId}

/-- A superclass that is finished, or is no type, has been tried. -/
theorem skip (open_ : r.Unfinished finished ((id, p :: untried) :: way))
    (useless : p ∈ finished ∨ r.size ≤ p.index) : r.Unfinished finished ((id, untried) :: way) := by
  cases open_ with
  | cons new tried rest =>
      refine .cons new (fun p' edge => ?_) rest
      rcases tried p' edge with waiting | old
      · rcases List.mem_cons.1 waiting with rfl | later
        · exact .inr useless
        · exact .inl later
      · exact .inr old

/-- A superclass that is followed will be finished before the type it was tried from. -/
theorem push (open_ : r.Unfinished finished ((id, p :: untried) :: way))
    (apart : p ∉ id :: way.map (·.1)) (new : p ∉ finished) :
    r.Unfinished finished ((p, r.parents p) :: (id, untried) :: way) := by
  refine .cons new (fun _ edge => .inl edge) ?_
  have others : ∀ v ∈ (id, p :: untried) :: way, v.1 ∈ p :: finished → v.1 ∈ finished := by
    intro v mem there
    rcases List.mem_cons.1 there with same | old
    · exact absurd (same ▸ List.mem_map_of_mem (f := Prod.fst) mem) apart
    · exact old
  exact (open_.mono (fun _ => List.mem_cons_of_mem p) others).skip (.inl List.mem_cons_self)

end Unfinished

/-- **Following a way to its end** finishes all types on it. -/
theorem followUp_ok {finished' : List TypeId} (all : r.Finished finished)
    (open_ : r.Unfinished finished way) (done : r.followUp finished way = .ok finished') :
    r.Finished finished' ∧ (∀ id ∈ finished, id ∈ finished') ∧
      ∀ id ∈ way.map (·.1), id ∈ finished' := by
  fun_induction followUp r finished way with
  | case1 finished =>
      cases done
      exact ⟨all, fun _ mem => mem, List.forall_mem_nil _⟩
  | case2 finished id way ih =>
      cases open_ with
      | cons new tried rest =>
          have above : ∀ p, r.Edge id p → p ∈ finished ∨ r.size ≤ p.index := fun p edge =>
            (tried p edge).resolve_left List.not_mem_nil
          obtain ⟨all, kept, ended⟩ := ih (.cons new above all) rest done
          obtain ⟨here, kept⟩ := List.forall_mem_cons.1 kept
          exact ⟨all, kept, List.forall_mem_cons.2 ⟨here, ended⟩⟩
  | case3 finished id p ps way met => cases done
  | case4 finished id p ps way _ useless ih => exact ih all (open_.skip useless) done
  | case5 finished id p ps way apart useful ih =>
      obtain ⟨all, kept, ended⟩ := ih all (open_.push apart (not_or.1 useful).1) done
      exact ⟨all, kept, (List.forall_mem_cons.1 ended).2⟩

/-- A search that reports nothing finishes all types from which it starts. -/
theorem exists_finished_of_cycleAbove? {ids : List TypeId} (all : r.Finished finished)
    (none : r.cycleAbove? finished ids = none) :
    ∃ finished', r.Finished finished' ∧ (∀ id ∈ finished, id ∈ finished') ∧
      ∀ id ∈ ids, id ∈ finished' := by
  fun_induction cycleAbove? r finished ids with
  | case1 finished => exact ⟨finished, all, fun _ mem => mem, List.forall_mem_nil _⟩
  | case2 finished id ids old ih =>
      obtain ⟨finished', all, kept, started⟩ := ih all none
      have here : id ∈ finished' := kept id (by simpa using old)
      exact ⟨finished', all, kept, List.forall_mem_cons.2 ⟨here, started⟩⟩
  | case3 finished id ids _ p failed => cases none
  | case4 finished id ids new finished₁ done ih =>
      have alone : r.Unfinished finished [(id, r.parents id)] :=
        .cons (by simpa using new) (fun _ edge => .inl edge) .nil
      obtain ⟨all₁, kept₁, ended⟩ := followUp_ok all alone done
      obtain ⟨finished', all, kept, started⟩ := ih all₁ none
      have here : id ∈ finished' := kept id (ended id List.mem_cons_self)
      exact ⟨finished', all, fun id mem => kept id (kept₁ id mem),
        List.forall_mem_cons.2 ⟨here, started⟩⟩

/-- **A cycle is reported exactly if there is one.** -/
theorem findCycle?_eq_none_iff : r.findCycle? = none ↔ ∀ id, ¬ TransGen r.Edge id id := by
  refine ⟨fun none id cycle => ?_, findCycle?_eq_none⟩
  obtain ⟨finished, all, -, started⟩ := exists_finished_of_cycleAbove? .nil none
  have known : id ∈ (List.range r.size).map TypeId.mk :=
    List.mem_map.2 ⟨id.index, List.mem_range.2 (lt_size_of_transGen cycle), rfl⟩
  exact all.not_transGen (started id known) cycle

/-! ## The order of types -/

theorem isA_iff_reflTransGen {a b : TypeId} : r.isA a b = true ↔ ReflTransGen r.Edge a b := by
  rw [isA_iff, Relation.reflTransGen_iff_eq_or_transGen, eq_comm]

theorem isA_trans {a b c : TypeId} (ab : r.isA a b = true) (bc : r.isA b c = true) :
    r.isA a c = true := by
  rw [isA_iff_reflTransGen] at ab bc ⊢
  exact ab.trans bc

/-- Two types that are each other or below each other are one, or stand above themselves. -/
theorem eq_of_isA {a b : TypeId} (acyclic : ¬ TransGen r.Edge a a) (ab : r.isA a b = true)
    (ba : r.isA b a = true) : a = b := by
  rw [isA_iff_reflTransGen] at ba
  rcases isA_iff.1 ab with same | path
  · exact same
  · exact absurd (path.trans_left ba) acyclic

/-! ## Rounds -/

/-- The search, given up if it is not over after so many rounds. -/
def cycleWithin (r : Registry) : (rounds : Nat) → (finished : List TypeId) →
    (way : List Visit) → (ids : List TypeId) → Option (Option TypeId)
  | _, _, [], [] => some none
  | 0, _, _, _ => none
  | rounds + 1, finished, [], id :: ids =>
      if finished.contains id then r.cycleWithin rounds finished [] ids
      else r.cycleWithin rounds finished [(id, r.parents id)] ids
  | rounds + 1, finished, (id, []) :: way, ids => r.cycleWithin rounds (id :: finished) way ids
  | rounds + 1, finished, (id, p :: ps) :: way, ids =>
      if p ∈ id :: way.map (·.1) then some (some p)
      else if p ∈ finished ∨ r.size ≤ p.index then
        r.cycleWithin rounds finished ((id, ps) :: way) ids
      else r.cycleWithin rounds finished ((p, r.parents p) :: (id, ps) :: way) ids

/-- A type that stands above itself, if so many rounds are enough to tell. -/
def findCycleWithin (r : Registry) (rounds : Nat) : Option (Option TypeId) :=
  r.cycleWithin rounds [] [] ((List.range r.size).map TypeId.mk)

/-- What the search comes to from a way on. -/
def cycleFrom? (r : Registry) (finished : List TypeId) (way : List Visit) (ids : List TypeId) :
    Option TypeId :=
  match r.followUp finished way with
  | .error p => some p
  | .ok finished => r.cycleAbove? finished ids

/-- How many rounds the types take that have not been visited. -/
def unbegun (r : Registry) (visited : List TypeId) : Nat :=
  ∑ i ∈ r.unvisited visited, ((r.parents ⟨i⟩).length + 1)

theorem unbegun_nil (r : Registry) : r.unbegun [] = r.edgeCount + r.size := by
  simp [unbegun, unvisited, edgeCount, Finset.sum_add_distrib]

theorem unbegun_cons {visited : List TypeId} (new : id ∉ visited) (known : id.index < r.size) :
    (r.parents id).length + 1 + r.unbegun (id :: visited) = r.unbegun visited :=
  sum_unvisited_cons new known fun i => (r.parents ⟨i⟩).length + 1

theorem unbegun_perm {visited visited' : List TypeId} (same : visited.Perm visited') :
    r.unbegun visited = r.unbegun visited' := by
  have alike : r.unvisited visited = r.unvisited visited' := by
    ext i
    simp [unvisited, same.mem_iff]
  rw [unbegun, unbegun, alike]

section From

variable {ids : List TypeId} {ps : List TypeId}

theorem cycleFrom?_nil : r.cycleFrom? finished [] ids = r.cycleAbove? finished ids := by
  rw [cycleFrom?, followUp]

theorem cycleFrom?_start :
    r.cycleFrom? finished [] (id :: ids) =
      if finished.contains id then r.cycleFrom? finished [] ids
      else r.cycleFrom? finished [(id, r.parents id)] ids := by
  cases followed : r.followUp finished [(id, r.parents id)] with
  | error p => rw [cycleFrom?_nil, cycleFrom?_nil, cycleAbove?, cycleFrom?, followed]
  | ok finished' => rw [cycleFrom?_nil, cycleFrom?_nil, cycleAbove?, cycleFrom?, followed]

theorem cycleFrom?_finish :
    r.cycleFrom? finished ((id, []) :: way) ids = r.cycleFrom? (id :: finished) way ids := by
  rw [cycleFrom?, followUp, cycleFrom?]

theorem cycleFrom?_try :
    r.cycleFrom? finished ((id, p :: ps) :: way) ids =
      if p ∈ id :: way.map (·.1) then some p
      else if p ∈ finished ∨ r.size ≤ p.index then r.cycleFrom? finished ((id, ps) :: way) ids
      else r.cycleFrom? finished ((p, r.parents p) :: (id, ps) :: way) ids := by
  rw [cycleFrom?, followUp]
  by_cases met : p ∈ id :: way.map (·.1)
  · rw [if_pos met, if_pos met]
  · rw [if_neg met, if_neg met]
    by_cases useless : p ∈ finished ∨ r.size ≤ p.index
    · rw [if_pos useless, if_pos useless, cycleFrom?]
    · rw [if_neg useless, if_neg useless, cycleFrom?]

/-- **The search is over** after one round for each type from which it has to start, one for
each superclass that is left to try on the way, one for each type on the way, and those of
the types that have not been visited. -/
theorem cycleWithin_eq {rounds : Nat} (known : ∀ id ∈ ids, id.index < r.size)
    (enough : ids.length + remaining way + r.unbegun (way.map (·.1) ++ finished) ≤ rounds) :
    r.cycleWithin rounds finished way ids = some (r.cycleFrom? finished way ids) := by
  induction rounds generalizing finished way ids with
  | zero =>
      cases way with
      | nil =>
          cases ids with
          | nil => simp [cycleWithin, cycleFrom?, followUp, cycleAbove?]
          | cons id ids => simp at enough
      | cons v way => simp [remaining] at enough
  | succ rounds ih =>
      rcases way with _ | ⟨⟨id, _ | ⟨p, ps⟩⟩, way⟩
      · cases ids with
        | nil => simp [cycleWithin, cycleFrom?, followUp, cycleAbove?]
        | cons id ids =>
            obtain ⟨here, others⟩ := List.forall_mem_cons.1 known
            simp only [List.length_cons, remaining, List.map_nil, List.nil_append] at enough
            rw [cycleWithin, cycleFrom?_start]
            split
            · exact ih others (by simp only [remaining, List.map_nil, List.nil_append]; omega)
            · rename_i new
              have begun := unbegun_cons (by simpa using new) here
              refine ih others ?_
              simp only [remaining, List.map_cons, List.map_nil, List.singleton_append]
              omega
      · -- The last type on the way has no superclass left to try.
        have same : r.unbegun (id :: (way.map (·.1) ++ finished)) =
            r.unbegun (way.map (·.1) ++ id :: finished) :=
          unbegun_perm List.perm_middle.symm
        simp only [remaining, List.length_nil, List.map_cons, List.cons_append] at enough
        rw [cycleWithin, cycleFrom?_finish]
        exact ih known (by omega)
      · simp only [remaining, List.length_cons, List.map_cons, List.cons_append] at enough
        rw [cycleWithin, cycleFrom?_try]
        split
        · rfl
        · rename_i apart
          split
          · exact ih known (by simp only [remaining, List.map_cons, List.cons_append]; omega)
          · rename_i useful
            obtain ⟨new, inside⟩ := not_or.1 useful
            have fresh : p ∉ id :: (way.map (·.1) ++ finished) := by
              rw [← List.cons_append, List.mem_append]
              exact not_or.2 ⟨apart, new⟩
            have begun := unbegun_cons fresh (Nat.not_le.1 inside)
            refine ih known ?_
            simp only [remaining, List.map_cons, List.cons_append]
            omega

/-- **The search for a cycle ends.** It takes no more rounds than there are edges and twice
as many as there are types. -/
theorem findCycleWithin_eq (r : Registry) :
    r.findCycleWithin (r.edgeCount + 2 * r.size) = some r.findCycle? := by
  have whole : r.cycleFrom? [] [] ((List.range r.size).map TypeId.mk) = r.findCycle? := by
    rw [cycleFrom?_nil, findCycle?]
  rw [findCycleWithin, cycleWithin_eq, whole]
  · intro id mem
    obtain ⟨i, inside, rfl⟩ := List.mem_map.1 mem
    exact List.mem_range.1 inside
  · simp only [List.length_map, List.length_range, remaining, List.map_nil, List.nil_append,
      unbegun_nil]
    omega

end From

end MediaSniff.Registry
