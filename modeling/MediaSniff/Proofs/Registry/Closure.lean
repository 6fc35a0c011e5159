/-
# MediaSniff.Proofs.Registry.Closure — the hierarchy is the closure of its edges

Two walks answer questions about a hierarchy, one depth first with the types it has been to,
one breadth first with the types it has seen. Both are about one relation: a type is another
or below it exactly if there is a path of edges, and the types above it are those at the ends
of paths, nearest first (`closure_of_edges`). This holds of any edges, with cycles and with
edges to numbers that are no types.

`Searched` is what every step of the first walk keeps. If it ends without an answer, the types
that it has been to are closed under edges, but for some that have none, and the target is
above none of them.

`IsFront` is what every step of the second walk keeps. Nothing but the queue leads out of what
has been seen, and the queue is in order of distance and spans two distances at most. So a
type that has not been seen is farther than some type of the queue (`IsFront.exists_nearer`),
and what the head of the queue adds is farther than the head by exactly one.

A walk is over when nothing is left to do. `searchWithin` and `aboveWithin` count the rounds:
the first walk needs one for its start and at most one for each edge, the second one for its
start and one for each type that it finds.
-/
import MediaSniff.Proofs.Registry.Distance
import Mathlib.Algebra.BigOperators.Group.Finset.Basic

set_option autoImplicit false

namespace MediaSniff.Registry

open Relation (ReflTransGen TransGen)

variable {r : Registry} {c target : TypeId}

/-! ## Depth first -/

theorem reaches_sound {visited rest : List TypeId}
    (found : r.reaches target visited rest = true) : ∃ id ∈ rest, TransGen r.Edge id target := by
  fun_induction reaches r target visited rest with
  | case1 visited => cases found
  | case2 visited id rest _ ih =>
      obtain ⟨id', mem, path⟩ := ih found
      exact ⟨id', List.mem_cons_of_mem _ mem, path⟩
  | case3 visited id rest _ ih =>
      rcases Bool.or_eq_true_iff.1 found with here | later
      · exact ⟨id, List.mem_cons_self, .single (by simpa [Edge] using here)⟩
      · obtain ⟨id', mem, path⟩ := ih later
        rcases List.mem_append.1 mem with parent | waiting
        · exact ⟨id, List.mem_cons_self, .head parent path⟩
        · exact ⟨id', List.mem_cons_of_mem _ waiting, path⟩

/-- What has been searched without finding the target. -/
structure Searched (r : Registry) (target : TypeId) (visited rest : List TypeId) : Prop where
  /-- A superclass of a type that has been visited is visited, waiting, or a dead end. -/
  closed : ∀ id ∈ visited, ∀ p, r.Edge id p → p ∈ visited ∨ p ∈ rest ∨ r.parents p = []
  missed : ∀ id ∈ visited, ¬ r.Edge id target

/-- A type that has been visited or is a dead end need not be visited. -/
theorem Searched.skip {visited rest : List TypeId} {id : TypeId}
    (searched : r.Searched target visited (id :: rest))
    (useless : id ∈ visited ∨ r.parents id = []) : r.Searched target visited rest where
  missed := searched.missed
  closed := by
    intro id' mem p edge
    rcases searched.closed id' mem p edge with old | waiting | dead
    · exact .inl old
    · rcases List.mem_cons.1 waiting with rfl | later
      · exact useless.imp_right .inr
      · exact .inr (.inl later)
    · exact .inr (.inr dead)

/-- The superclasses of a type that is visited have to wait. -/
theorem Searched.visit {visited rest : List TypeId} {id : TypeId}
    (searched : r.Searched target visited (id :: rest)) (missed : ¬ r.Edge id target) :
    r.Searched target (id :: visited) (r.parents id ++ rest) where
  missed := by
    intro id' mem
    rcases List.mem_cons.1 mem with rfl | old
    · exact missed
    · exact searched.missed id' old
  closed := by
    intro id' mem p edge
    rcases List.mem_cons.1 mem with rfl | old
    · exact .inr (.inl (List.mem_append_left _ edge))
    · rcases searched.closed id' old p edge with old | waiting | dead
      · exact .inl (List.mem_cons_of_mem _ old)
      · rcases List.mem_cons.1 waiting with rfl | later
        · exact .inl List.mem_cons_self
        · exact .inr (.inl (List.mem_append_right _ later))
      · exact .inr (.inr dead)

theorem not_transGen_of_parents_eq_nil {id : TypeId} (dead : r.parents id = []) :
    ¬ TransGen r.Edge id target := by
  intro path
  obtain ⟨p, edge, -⟩ := TransGen.head'_iff.1 path
  rw [Edge, dead] at edge
  cases edge

/-- When nothing waits any more, no way leads from what has been visited to the target. -/
theorem Searched.not_transGen {visited : List TypeId} (searched : r.Searched target visited [])
    {id : TypeId} (mem : id ∈ visited) : ¬ TransGen r.Edge id target := by
  intro path
  induction path using TransGen.head_induction_on with
  | single edge => exact searched.missed _ mem edge
  | head edge path ih =>
      rcases searched.closed _ mem _ edge with old | waiting | dead
      · exact ih old
      · cases waiting
      · exact not_transGen_of_parents_eq_nil dead path

/-- A search that fails has been everywhere. -/
theorem Searched.not_transGen_of_reaches {visited rest : List TypeId}
    (searched : r.Searched target visited rest)
    (failed : r.reaches target visited rest = false) :
    ∀ id, id ∈ visited ∨ id ∈ rest → ¬ TransGen r.Edge id target := by
  fun_induction reaches r target visited rest with
  | case1 visited =>
      intro id mem
      exact searched.not_transGen (mem.resolve_right List.not_mem_nil)
  | case2 visited id rest useless ih =>
      intro id' mem
      have others := ih (searched.skip useless) failed
      rcases mem with old | waiting
      · exact others id' (.inl old)
      · rcases List.mem_cons.1 waiting with rfl | later
        · rcases useless with old | dead
          · exact others id' (.inl old)
          · exact not_transGen_of_parents_eq_nil dead
        · exact others id' (.inr later)
  | case3 visited id rest _ ih =>
      intro id' mem
      obtain ⟨here, later⟩ := Bool.or_eq_false_iff.1 failed
      have missed : ¬ r.Edge id target := by simpa [Edge] using here
      have others := ih (searched.visit missed) later
      rcases mem with old | waiting
      · exact others id' (.inl (List.mem_cons_of_mem _ old))
      · rcases List.mem_cons.1 waiting with rfl | later
        · exact others id' (.inl List.mem_cons_self)
        · exact others id' (.inr (List.mem_append_right _ later))

theorem reaches_iff : r.reaches target [] [c] = true ↔ TransGen r.Edge c target := by
  constructor
  · intro found
    obtain ⟨id, mem, path⟩ := reaches_sound found
    rwa [List.mem_singleton.1 mem] at path
  · intro path
    have nowhere : r.Searched target [] [c] := ⟨nofun, nofun⟩
    cases found : r.reaches target [] [c] with
    | true => rfl
    | false => exact absurd path (nowhere.not_transGen_of_reaches found c (.inr List.mem_cons_self))

/-- **To be a type or below it** is a path of edges. -/
theorem isA_iff : r.isA c target = true ↔ c = target ∨ TransGen r.Edge c target := by
  simp [isA, reaches_iff]

/-! ## Breadth first -/

theorem mem_freshOnes_iff {seen ps : List TypeId} {p : TypeId} :
    p ∈ freshOnes seen ps ↔ p ∈ ps ∧ p ∉ seen := by
  refine ⟨mem_freshOnes, ?_⟩
  induction ps generalizing seen with
  | nil => exact fun waiting => absurd waiting.1 List.not_mem_nil
  | cons a ps ih =>
      rintro ⟨mem, fresh⟩
      unfold freshOnes
      split
      · rename_i old
        rcases List.mem_cons.1 mem with rfl | later
        · exact absurd (by simpa using old) fresh
        · exact ih ⟨later, fresh⟩
      · by_cases same : p = a
        · exact List.mem_cons.2 (.inl same)
        · refine List.mem_cons_of_mem _ (ih ⟨?_, ?_⟩)
          · exact (List.mem_cons.1 mem).resolve_left same
          · simp [same, fresh]

theorem nodup_freshOnes (seen ps : List TypeId) : (freshOnes seen ps).Nodup := by
  induction ps generalizing seen with
  | nil => exact List.nodup_nil
  | cons a ps ih =>
      unfold freshOnes
      split
      · exact ih seen
      · refine List.nodup_cons.2 ⟨fun mem => ?_, ih (a :: seen)⟩
        exact (mem_freshOnes_iff.1 mem).2 List.mem_cons_self

/-- A walk upwards from `c` in order of distance. -/
structure IsFront (r : Registry) (c : TypeId) (seen queue : List TypeId) : Prop where
  start : c ∈ seen
  reached : ∀ id ∈ seen, ReflTransGen r.Edge c id
  queued : ∀ id ∈ queue, id ∈ seen
  /-- Only the queue leads out of what has been seen. -/
  closed : ∀ id ∈ seen, id ∉ queue → ∀ p, r.Edge id p → p ∈ seen
  ordered : queue.Pairwise fun a b => r.distance c a ≤ r.distance c b
  /-- The queue spans two distances at most. -/
  narrow : ∀ a ∈ queue, ∀ b ∈ queue, r.distance c b ≤ r.distance c a + 1

namespace IsFront

variable {seen queue : List TypeId}

theorem init (r : Registry) (c : TypeId) : r.IsFront c [c] [c] where
  start := List.mem_cons_self
  reached := by simpa using ReflTransGen.refl
  queued := fun _ mem => mem
  closed := fun _ mem other => absurd mem other
  ordered := List.pairwise_singleton _ _
  narrow := by simp

/-- What has not been seen is farther than some type of the queue: a shortest way to it leaves
what has been seen through one. -/
theorem exists_nearer (front : r.IsFront c seen queue) {a : TypeId}
    (path : ReflTransGen r.Edge c a) (unseen : a ∉ seen) :
    ∃ z ∈ queue, r.distance c z < r.distance c a := by
  induction far : r.distance c a generalizing a with
  | zero =>
      have way := climb_distance path
      rw [far] at way
      cases way
      exact absurd front.start unseen
  | succ n ih =>
      have other : a ≠ c := fun same => unseen (same ▸ front.start)
      obtain ⟨b, path, edge, longer⟩ := Registry.exists_nearer path other
      have near : r.distance c b = n := by omega
      by_cases old : b ∈ seen
      · have waiting : b ∈ queue := by
          by_contra gone
          exact unseen (front.closed b old gone a edge)
        exact ⟨b, waiting, by omega⟩
      · obtain ⟨z, waiting, nearer⟩ := ih path old near
        exact ⟨z, waiting, by omega⟩

theorem le_of_unseen (front : r.IsFront c seen queue) {a q : TypeId}
    (path : ReflTransGen r.Edge c a) (unseen : a ∉ seen) (waiting : q ∈ queue) :
    r.distance c q ≤ r.distance c a := by
  obtain ⟨z, mem, nearer⟩ := front.exists_nearer path unseen
  have close := front.narrow z mem q waiting
  omega

variable {id : TypeId}

theorem reached_fresh (front : r.IsFront c seen (id :: queue)) {p : TypeId}
    (mem : p ∈ freshOnes seen (r.parents id)) : ReflTransGen r.Edge c p :=
  (front.reached id (front.queued id List.mem_cons_self)).tail (mem_freshOnes_iff.1 mem).1

/-- What the head of the queue adds is farther by one. -/
theorem distance_fresh (front : r.IsFront c seen (id :: queue)) {p : TypeId}
    (mem : p ∈ freshOnes seen (r.parents id)) : r.distance c p = r.distance c id + 1 := by
  obtain ⟨edge, unseen⟩ := mem_freshOnes_iff.1 mem
  have high : r.distance c p ≤ r.distance c id + 1 :=
    distance_le_succ (front.reached id (front.queued id List.mem_cons_self)) edge
  obtain ⟨z, waiting, nearer⟩ := front.exists_nearer (front.reached_fresh mem) unseen
  have low : r.distance c id ≤ r.distance c z := by
    rcases List.mem_cons.1 waiting with rfl | later
    · exact le_rfl
    · exact (List.pairwise_cons.1 front.ordered).1 z later
  omega

/-- Taking the head of the queue keeps a walk in order. -/
theorem step (front : r.IsFront c seen (id :: queue)) :
    r.IsFront c (seen ++ freshOnes seen (r.parents id))
      (queue ++ freshOnes seen (r.parents id)) := by
  have low : ∀ a ∈ queue, r.distance c id ≤ r.distance c a :=
    (List.pairwise_cons.1 front.ordered).1
  have high : ∀ a ∈ queue, r.distance c a ≤ r.distance c id + 1 := fun a mem =>
    front.narrow id List.mem_cons_self a (List.mem_cons_of_mem _ mem)
  have added : ∀ p ∈ freshOnes seen (r.parents id), r.distance c p = r.distance c id + 1 :=
    fun p mem => front.distance_fresh mem
  constructor
  case start => exact List.mem_append_left _ front.start
  case reached =>
    intro a mem
    rcases List.mem_append.1 mem with old | fresh
    · exact front.reached a old
    · exact front.reached_fresh fresh
  case queued =>
    intro a mem
    rcases List.mem_append.1 mem with waiting | fresh
    · exact List.mem_append_left _ (front.queued a (List.mem_cons_of_mem _ waiting))
    · exact List.mem_append_right _ fresh
  case closed =>
    intro a mem gone p edge
    rw [List.mem_append, not_or] at gone
    have old : a ∈ seen := (List.mem_append.1 mem).resolve_right gone.2
    by_cases head : a = id
    · subst head
      by_cases known : p ∈ seen
      · exact List.mem_append_left _ known
      · exact List.mem_append_right _ (mem_freshOnes_iff.2 ⟨edge, known⟩)
    · exact List.mem_append_left _ (front.closed a old (by simp [head, gone.1]) p edge)
  case ordered =>
    refine List.pairwise_append.2 ⟨(List.pairwise_cons.1 front.ordered).2, ?_, ?_⟩
    · refine List.pairwise_of_forall_mem_list fun a mem b mem' => ?_
      rw [added a mem, added b mem']
    · intro a mem b fresh
      rw [added b fresh]
      exact high a mem
  case narrow =>
    -- Both distances lie between that of the head and the next.
    have between : ∀ a ∈ queue ++ freshOnes seen (r.parents id),
        r.distance c id ≤ r.distance c a ∧ r.distance c a ≤ r.distance c id + 1 := by
      intro a mem
      rcases List.mem_append.1 mem with waiting | fresh
      · exact ⟨low a waiting, high a waiting⟩
      · have here := added a fresh
        omega
    intro a mem b mem'
    have ha := between a mem
    have hb := between b mem'
    omega

/-- What the rest of a walk finds: what can be reached and has not been seen. -/
theorem mem_ancestorsFrom (front : r.IsFront c seen queue) (a : TypeId) :
    a ∈ r.ancestorsFrom seen queue ↔ a ∉ seen ∧ ReflTransGen r.Edge c a := by
  fun_induction ancestorsFrom r seen queue with
  | case1 seen =>
      refine iff_of_false List.not_mem_nil ?_
      rintro ⟨unseen, path⟩
      obtain ⟨z, waiting, -⟩ := front.exists_nearer path unseen
      cases waiting
  | case2 seen id queue fresh ih =>
      rw [List.mem_append, ih front.step, List.mem_append, not_or]
      constructor
      · rintro (here | ⟨⟨unseen, -⟩, path⟩)
        · exact ⟨(mem_freshOnes_iff.1 here).2, front.reached_fresh here⟩
        · exact ⟨unseen, path⟩
      · rintro ⟨unseen, path⟩
        by_cases here : a ∈ fresh
        · exact .inl here
        · exact .inr ⟨⟨unseen, here⟩, path⟩

theorem nodup_ancestorsFrom (front : r.IsFront c seen queue) :
    (r.ancestorsFrom seen queue).Nodup := by
  fun_induction ancestorsFrom r seen queue with
  | case1 seen => exact List.nodup_nil
  | case2 seen id queue fresh ih =>
      refine List.nodup_append.2 ⟨nodup_freshOnes seen _, ih front.step, ?_⟩
      rintro a here _ later rfl
      exact ((front.step.mem_ancestorsFrom a).1 later).1 (List.mem_append_right _ here)

theorem pairwise_ancestorsFrom (front : r.IsFront c seen queue) :
    (r.ancestorsFrom seen queue).Pairwise fun a b => r.distance c a ≤ r.distance c b := by
  fun_induction ancestorsFrom r seen queue with
  | case1 seen => exact List.Pairwise.nil
  | case2 seen id queue fresh ih =>
      refine List.pairwise_append.2 ⟨?_, ih front.step, ?_⟩
      · refine List.pairwise_of_forall_mem_list fun a mem b mem' => ?_
        rw [front.distance_fresh mem, front.distance_fresh mem']
      · -- What is found later had not been seen when these were put into the queue.
        intro a here b later
        obtain ⟨unseen, path⟩ := (front.step.mem_ancestorsFrom b).1 later
        exact front.step.le_of_unseen path unseen (List.mem_append_right _ here)

end IsFront

theorem mem_ancestors_iff {a : TypeId} :
    a ∈ r.ancestors c ↔ a ≠ c ∧ TransGen r.Edge c a := by
  rw [ancestors, (IsFront.init r c).mem_ancestorsFrom a, List.mem_singleton,
    Relation.reflTransGen_iff_eq_or_transGen]
  constructor
  · rintro ⟨other, same | path⟩
    · exact absurd same other
    · exact ⟨other, path⟩
  · rintro ⟨other, path⟩
    exact ⟨other, .inr path⟩

/-! ## Rounds -/

/-- The first walk, given up if it is not over after so many rounds. -/
def searchWithin (r : Registry) (target : TypeId) :
    (rounds : Nat) → (visited rest : List TypeId) → Option Bool
  | _, _, [] => some false
  | 0, _, _ :: _ => none
  | rounds + 1, visited, id :: rest =>
      if id ∈ visited ∨ r.parents id = [] then r.searchWithin target rounds visited rest
      else if target ∈ r.parents id then some true
      else r.searchWithin target rounds (id :: visited) (r.parents id ++ rest)

/-- Whether a type is another or below it, if so many rounds are enough to tell. -/
def isAWithin (r : Registry) (rounds : Nat) (child ancestor : TypeId) : Option Bool :=
  if child = ancestor then some true else r.searchWithin ancestor rounds [] [child]

/-- The second walk, given up if it is not over after so many rounds. -/
def aboveWithin (r : Registry) : (rounds : Nat) → (seen queue : List TypeId) →
    Option (List TypeId)
  | _, _, [] => some []
  | 0, _, _ :: _ => none
  | rounds + 1, seen, id :: queue =>
      let fresh := freshOnes seen (r.parents id)
      (r.aboveWithin rounds (seen ++ fresh) (queue ++ fresh)).map (fresh ++ ·)

/-- All types above a type, if so many rounds are enough to find them. -/
def ancestorsWithin (r : Registry) (rounds : Nat) (id : TypeId) : Option (List TypeId) :=
  r.aboveWithin rounds [id] [id]

/-- The types that have not been visited. -/
def unvisited (r : Registry) (visited : List TypeId) : Finset Nat :=
  (Finset.range r.size).filter fun i => ⟨i⟩ ∉ visited

/-- How many edges lead out of the types that have not been visited. -/
def untried (r : Registry) (visited : List TypeId) : Nat :=
  ∑ i ∈ r.unvisited visited, (r.parents ⟨i⟩).length

/-- How many edges there are. -/
def edgeCount (r : Registry) : Nat := ∑ i ∈ Finset.range r.size, (r.parents ⟨i⟩).length

theorem untried_nil (r : Registry) : r.untried [] = r.edgeCount := by
  simp [untried, unvisited, edgeCount]

theorem unvisited_cons (r : Registry) (visited : List TypeId) (id : TypeId) :
    r.unvisited (id :: visited) = (r.unvisited visited).erase id.index := by
  ext i
  have same : (⟨i⟩ : TypeId) = id ↔ i = id.index := by
    cases id
    simp
  simp only [unvisited, Finset.mem_filter, Finset.mem_erase, List.mem_cons, not_or, same]
  tauto

/-- Whatever the types that have not been visited weigh together, a visit takes off what one
of them weighs. -/
theorem sum_unvisited_cons {visited : List TypeId} {id : TypeId} (unvisited : id ∉ visited)
    (known : id.index < r.size) (weight : Nat → Nat) :
    weight id.index + ∑ i ∈ r.unvisited (id :: visited), weight i =
      ∑ i ∈ r.unvisited visited, weight i := by
  have mem : id.index ∈ r.unvisited visited := by
    simp [Registry.unvisited, unvisited, known]
  rw [unvisited_cons]
  exact Finset.add_sum_erase _ weight mem

/-- Visiting a type tries its edges. -/
theorem untried_cons {visited : List TypeId} {id : TypeId} (unvisited : id ∉ visited)
    (live : r.parents id ≠ []) :
    (r.parents id).length + r.untried (id :: visited) = r.untried visited :=
  sum_unvisited_cons unvisited (lt_size_of_parents_ne_nil live) fun i => (r.parents ⟨i⟩).length

/-- **The first walk is over** after one round for each type that waits and one for each edge
that has not been tried. -/
theorem searchWithin_eq {visited rest : List TypeId} {rounds : Nat}
    (enough : rest.length + r.untried visited ≤ rounds) :
    r.searchWithin target rounds visited rest = some (r.reaches target visited rest) := by
  fun_induction reaches r target visited rest generalizing rounds with
  | case1 visited => cases rounds <;> rfl
  | case2 visited id rest useless ih =>
      rw [List.length_cons] at enough
      cases rounds with
      | zero => omega
      | succ rounds =>
          rw [searchWithin, if_pos useless]
          exact ih (by omega)
  | case3 visited id rest useful ih =>
      rw [List.length_cons] at enough
      have tried := untried_cons (not_or.1 useful).1 (not_or.1 useful).2
      cases rounds with
      | zero => omega
      | succ rounds =>
          rw [searchWithin, if_neg useful]
          by_cases here : target ∈ r.parents id
          · simp [here]
          · rw [if_neg here, ih (by rw [List.length_append]; omega)]
            simp [here]

/-- **The second walk is over** after one round for each type that waits and one for each type
that it finds. -/
theorem aboveWithin_eq {seen queue : List TypeId} : ∀ {rounds : Nat},
    queue.length + (r.ancestorsFrom seen queue).length ≤ rounds →
      r.aboveWithin rounds seen queue = some (r.ancestorsFrom seen queue) := by
  fun_induction ancestorsFrom r seen queue with
  | case1 seen =>
      intro rounds _
      cases rounds <;> rfl
  | case2 seen id queue fresh =>
      rename_i ih
      intro rounds enough
      rw [List.length_cons, List.length_append] at enough
      cases rounds with
      | zero => omega
      | succ rounds =>
          show (r.aboveWithin rounds (seen ++ fresh) (queue ++ fresh)).map (fresh ++ ·) = _
          rw [ih (by rw [List.length_append]; omega)]
          rfl

theorem isAWithin_eq (r : Registry) (child ancestor : TypeId) :
    r.isAWithin (r.edgeCount + 1) child ancestor = some (r.isA child ancestor) := by
  have enough : [child].length + r.untried [] ≤ r.edgeCount + 1 := by
    rw [untried_nil, List.length_singleton]
    omega
  rw [isAWithin, isA, searchWithin_eq enough]
  by_cases same : child = ancestor <;> simp [same]

/-! ## Both walks -/

/-- **The hierarchy is the closure of its edges.** A type is another or below it exactly if it
is that type or there is a path of edges. The types above a type are those at the ends of
paths, apart from itself, each of them once, in the order of the lengths of shortest paths. So
the two questions agree. Both walks end: the first takes no more rounds than there are edges
and one more, the second as many as there are types above and one more. -/
theorem closure_of_edges (r : Registry) (c : TypeId) :
    (∀ a, r.isA c a = true ↔ c = a ∨ TransGen r.Edge c a) ∧
    (∀ a, a ∈ r.ancestors c ↔ a ≠ c ∧ TransGen r.Edge c a) ∧
    (r.ancestors c).Nodup ∧
    ((r.ancestors c).Pairwise fun a b => r.distance c a ≤ r.distance c b) ∧
    (∀ a, r.isA c a = true ↔ c = a ∨ a ∈ r.ancestors c) ∧
    (∀ a, r.isAWithin (r.edgeCount + 1) c a = some (r.isA c a)) ∧
    r.ancestorsWithin ((r.ancestors c).length + 1) c = some (r.ancestors c) := by
  have start := IsFront.init r c
  refine ⟨fun a => isA_iff, fun a => mem_ancestors_iff, start.nodup_ancestorsFrom,
    start.pairwise_ancestorsFrom, fun a => ?_, r.isAWithin_eq c, ?_⟩
  · rw [isA_iff, mem_ancestors_iff]
    by_cases same : c = a
    · simp [same]
    · simp [same, Ne.symm same]
  · apply aboveWithin_eq
    rw [List.length_singleton, Nat.add_comm]
    exact le_rfl

end MediaSniff.Registry
