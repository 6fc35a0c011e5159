/-
# MediaSniff.Proofs.Registry.Distance — how far one type stands above another

`Climb` counts the edges of a way upwards, from a type to one above it. A type stands above
another at some distance exactly if there is a way of some length (`exists_climb_iff`), and
the distance is the length of a shortest one. Along an edge it grows by one at most
(`distance_le_succ`), and every type but the lowest has a subclass that is nearer by one
(`exists_nearer`): these two are all that a walk in order of distance needs to know.
-/
import MediaSniff.Proofs.Registry.Cycle
import Mathlib.Order.Lattice.Nat

set_option autoImplicit false

namespace MediaSniff.Registry

open Relation (ReflTransGen TransGen)

variable {r : Registry} {c a b : TypeId}

/-- A way upwards along so many edges. -/
inductive Climb (r : Registry) (c : TypeId) : Nat → TypeId → Prop
  | start : Climb r c 0 c
  | step {n : Nat} {id parent : TypeId} (way : Climb r c n id) (edge : r.Edge id parent) :
      Climb r c (n + 1) parent

theorem Climb.reflTransGen {n : Nat} (way : r.Climb c n a) : ReflTransGen r.Edge c a := by
  induction way with
  | start => exact .refl
  | step _ edge ih => exact ih.tail edge

theorem exists_climb_iff : (∃ n, r.Climb c n a) ↔ ReflTransGen r.Edge c a := by
  constructor
  · rintro ⟨n, way⟩
    exact way.reflTransGen
  · intro path
    induction path with
    | refl => exact ⟨0, .start⟩
    | tail _ edge ih =>
        obtain ⟨n, way⟩ := ih
        exact ⟨n + 1, .step way edge⟩

/-- The length of a shortest way from `c` up to `a`. It means nothing where there is none. -/
noncomputable def distance (r : Registry) (c a : TypeId) : Nat := sInf {n | r.Climb c n a}

/-- There is a way of that length. -/
theorem climb_distance (path : ReflTransGen r.Edge c a) : r.Climb c (r.distance c a) a :=
  Nat.sInf_mem (exists_climb_iff.2 path)

/-- No way is shorter. -/
theorem distance_le {n : Nat} (way : r.Climb c n a) : r.distance c a ≤ n := Nat.sInf_le way

theorem distance_le_succ (path : ReflTransGen r.Edge c a) (edge : r.Edge a b) :
    r.distance c b ≤ r.distance c a + 1 :=
  distance_le (.step (climb_distance path) edge)

/-- A shortest way comes from a type that is nearer by one. -/
theorem exists_nearer (path : ReflTransGen r.Edge c a) (other : a ≠ c) :
    ∃ b, ReflTransGen r.Edge c b ∧ r.Edge b a ∧ r.distance c a = r.distance c b + 1 := by
  have way := climb_distance path
  generalize length : r.distance c a = n at way
  cases way with
  | start => exact absurd rfl other
  | @step n b _ way edge =>
      refine ⟨b, way.reflTransGen, edge, ?_⟩
      have short := distance_le way
      have long := distance_le_succ way.reflTransGen edge
      omega

end MediaSniff.Registry
