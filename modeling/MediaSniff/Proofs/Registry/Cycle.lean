/-
# MediaSniff.Proofs.Registry.Cycle — what is reported as a cycle is one

The search for a cycle follows a way upwards and keeps, for each type on it, the
superclasses that have not been tried. `IsWay` is what every step of it keeps: each type on
the way is a direct superclass of the one before it, and what is left to try of a type are
superclasses of it. So from every type on a way there is a path to its end, and a
superclass of the end that is met again on the way closes a cycle (`findCycle?_sound`). A
hierarchy in which nothing stands above itself is reported to have none.
-/
import MediaSniff.Registry.Hierarchy
import Mathlib.Data.List.Chain
import Mathlib.Logic.Relation

set_option autoImplicit false

namespace MediaSniff.Registry

open Relation (ReflTransGen TransGen)

variable {r : Registry}

/-- `parent` is a direct superclass of `child`. -/
def Edge (r : Registry) (child parent : TypeId) : Prop := parent ∈ r.parents child

/-- A way upwards, its end first, with superclasses that are left to try. -/
structure IsWay (r : Registry) (way : List Visit) : Prop where
  untried : ∀ v ∈ way, ∀ p ∈ v.2, r.Edge v.1 p
  linked : way.IsChain fun upper lower => r.Edge lower.1 upper.1

/-- From every type on a way there is a path to its end. -/
theorem IsWay.reflTransGen {id : TypeId} {ps : List TypeId} {way : List Visit}
    (isWay : r.IsWay ((id, ps) :: way)) {v : Visit} (mem : v ∈ (id, ps) :: way) :
    ReflTransGen r.Edge v.1 id := by
  have paths : ((id, ps) :: way).IsChain fun upper lower => ReflTransGen r.Edge lower.1 upper.1 :=
    isWay.linked.imp fun _ _ edge => .single edge
  have trans : Trans (fun upper lower : Visit => ReflTransGen r.Edge lower.1 upper.1)
      (fun upper lower : Visit => ReflTransGen r.Edge lower.1 upper.1)
      (fun upper lower : Visit => ReflTransGen r.Edge lower.1 upper.1) :=
    ⟨fun upper lower => lower.trans upper⟩
  rcases List.mem_cons.1 mem with rfl | later
  · exact .refl
  · exact (List.pairwise_cons.1 (List.isChain_iff_pairwise.1 paths)).1 v later

theorem IsWay.tried {id p : TypeId} {ps : List TypeId} {way : List Visit}
    (isWay : r.IsWay ((id, p :: ps) :: way)) : r.IsWay ((id, ps) :: way) := by
  constructor
  · intro v mem p' left
    rcases List.mem_cons.1 mem with rfl | later
    · exact isWay.untried (id, p :: ps) List.mem_cons_self p' (List.mem_cons_of_mem _ left)
    · exact isWay.untried v (List.mem_cons_of_mem _ later) p' left
  · have linked := isWay.linked
    cases way with
    | nil => exact .singleton _
    | cons lower way =>
        obtain ⟨edge, rest⟩ := List.isChain_cons_cons.1 linked
        exact List.isChain_cons_cons.2 ⟨edge, rest⟩

theorem IsWay.tail {v : Visit} {way : List Visit} (isWay : r.IsWay (v :: way)) : r.IsWay way where
  untried := fun v' mem => isWay.untried v' (List.mem_cons_of_mem _ mem)
  linked := isWay.linked.tail

/-- A superclass of the end carries a way on. -/
theorem IsWay.push {id p : TypeId} {ps : List TypeId} {way : List Visit}
    (isWay : r.IsWay ((id, ps) :: way)) (edge : r.Edge id p) :
    r.IsWay ((p, r.parents p) :: (id, ps) :: way) := by
  constructor
  · intro v mem p' left
    rcases List.mem_cons.1 mem with rfl | later
    · exact left
    · exact isWay.untried v later p' left
  · exact List.isChain_cons_cons.2 ⟨edge, isWay.linked⟩

/-- A step of the search keeps `IsWay`, and what it reports lies on a cycle. -/
theorem followUp_error {finished : List TypeId} {way : List Visit} {p : TypeId}
    (isWay : r.IsWay way) (found : r.followUp finished way = .error p) :
    TransGen r.Edge p p := by
  fun_induction followUp r finished way with
  | case1 finished => cases found
  | case2 finished id way ih => exact ih isWay.tail found
  | case3 finished id p' ps way met =>
      cases found
      have edge : r.Edge id p := isWay.untried _ List.mem_cons_self p List.mem_cons_self
      have onWay : ∃ v ∈ (id, p :: ps) :: way, v.1 = p := by
        simpa [eq_comm] using met
      obtain ⟨v, mem, rfl⟩ := onWay
      exact .tail' (isWay.reflTransGen mem) edge
  | case4 finished id p' ps way _ _ ih => exact ih isWay.tried found
  | case5 finished id p' ps way _ _ ih =>
      have edge : r.Edge id p' := isWay.untried _ List.mem_cons_self p' List.mem_cons_self
      exact ih (isWay.tried.push edge) found

theorem cycleAbove?_sound {finished ids : List TypeId} {p : TypeId}
    (found : r.cycleAbove? finished ids = some p) : TransGen r.Edge p p := by
  fun_induction cycleAbove? r finished ids with
  | case1 finished => cases found
  | case2 finished id ids _ ih => exact ih found
  | case3 finished id ids _ p' failed =>
      cases found
      refine followUp_error ⟨?_, .singleton _⟩ failed
      intro v mem p' left
      rw [List.mem_singleton.1 mem] at left ⊢
      exact left
  | case4 finished id ids _ finished' _ ih => exact ih found

/-- **A type that is reported stands above itself.** -/
theorem findCycle?_sound {p : TypeId} (found : r.findCycle? = some p) : TransGen r.Edge p p :=
  cycleAbove?_sound found

theorem findCycle?_eq_none (acyclic : ∀ id, ¬ TransGen r.Edge id id) : r.findCycle? = none := by
  cases found : r.findCycle? with
  | none => rfl
  | some p => exact absurd (findCycle?_sound found) (acyclic p)

end MediaSniff.Registry
