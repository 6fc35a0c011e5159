/-
# MediaSniff.Proofs.Outcome — steps that may fail

Compiling is a chain of steps, each of which may refuse. A chain succeeds exactly when
every step does (`bind_eq_ok`), and a step done for each member of a list succeeds exactly
when it does for all of them, with results that match the members (`mapM_eq_ok`). The
outcomes are then those results and nothing else (`mapM_eq_ok_iff_map`).

A chain that fails fails at one of its steps (`bind_eq_error`). So it fails for no cause for
which none of its steps does (`Avoids`).
-/
import Mathlib.Data.List.Forall2

set_option autoImplicit false

namespace MediaSniff.Outcome

universe u v

variable {ε : Type u} {α β : Type v}

/-- A step that succeeds hands its result on. -/
theorem ok_bind (a : α) (f : α → Except ε β) : (.ok a >>= f : Except ε β) = f a := rfl

theorem bind_eq_ok {x : Except ε α} {f : α → Except ε β} {b : β} :
    x >>= f = .ok b ↔ ∃ a, x = .ok a ∧ f a = .ok b := by
  cases x with
  | error e =>
      constructor
      · intro impossible
        cases impossible
      · rintro ⟨_, impossible, _⟩
        cases impossible
  | ok a =>
      constructor
      · intro done
        exact ⟨a, rfl, done⟩
      · rintro ⟨_, same, done⟩
        cases same
        exact done

theorem not_exists_error_eq_ok {e : ε} : ¬ ∃ a : α, (.error e : Except ε α) = .ok a := by
  rintro ⟨_, done⟩
  cases done

/-- A step that always succeeds takes nothing from the one before it. -/
theorem exists_bind_eq_ok {x : Except ε α} {f : α → Except ε β} (always : ∀ a, ∃ b, f a = .ok b) :
    (∃ b, x >>= f = .ok b) ↔ ∃ a, x = .ok a := by
  simp only [bind_eq_ok]
  constructor
  · rintro ⟨_, a, first, -⟩
    exact ⟨a, first⟩
  · rintro ⟨a, first⟩
    obtain ⟨b, done⟩ := always a
    exact ⟨b, a, first, done⟩

/-- Whether there is a result can be computed. -/
instance decidableExistsEqOk {x : Except ε α} : Decidable (∃ a, x = .ok a) :=
  match x with
  | .ok a => .isTrue ⟨a, rfl⟩
  | .error _ => .isFalse nofun

/-- Whether there is one of a kind can be computed. -/
instance decidableExistsEqOkAnd {x : Except ε α} {p : α → Prop} [DecidablePred p] :
    Decidable (∃ a, x = .ok a ∧ p a) :=
  match x with
  | .ok a => decidable_of_iff (p a) ⟨fun holds => ⟨a, rfl, holds⟩, fun ⟨_, same, holds⟩ =>
      Except.ok.inj same ▸ holds⟩
  | .error _ => .isFalse nofun

/-- What is there or else refused. -/
theorem elim_eq_ok {o : Option α} {cause : ε} {a : α} :
    o.elim (.error cause) .ok = (.ok a : Except ε α) ↔ o = some a := by
  cases o with
  | none => exact iff_of_false nofun nofun
  | some a' => rw [Option.elim_some, Except.ok.injEq, Option.some.injEq]

theorem elim_eq_error {o : Option α} {cause cause' : ε} :
    o.elim (.error cause) .ok = (.error cause' : Except ε α) ↔ cause' = cause ∧ o = none := by
  cases o with
  | none => rw [Option.elim_none, Except.error.injEq, eq_comm, and_iff_left rfl]
  | some a => exact iff_of_false nofun nofun

theorem mapM_eq_ok {f : α → Except ε β} {xs : List α} {ys : List β} :
    xs.mapM f = .ok ys ↔ List.Forall₂ (fun x y => f x = .ok y) xs ys := by
  induction xs generalizing ys with
  | nil =>
      rw [List.mapM_nil, List.forall₂_nil_left_iff]
      constructor
      · intro done
        cases done
        rfl
      · rintro rfl
        rfl
  | cons x xs ih =>
      rw [List.mapM_cons, bind_eq_ok, List.forall₂_cons_left_iff]
      constructor
      · rintro ⟨y, first, rest⟩
        obtain ⟨ys', others, whole⟩ := bind_eq_ok.1 rest
        cases whole
        exact ⟨y, ys', first, ih.1 others, rfl⟩
      · rintro ⟨y, ys', first, others, rfl⟩
        exact ⟨y, first, bind_eq_ok.2 ⟨ys', ih.2 others, rfl⟩⟩

/-- A step done for a member that there may be. -/
theorem option_mapM_eq_ok {f : α → Except ε β} {o : Option α} {o' : Option β} :
    o.mapM f = .ok o' ↔ Option.Rel (fun a b => f a = .ok b) o o' := by
  cases o with
  | none =>
      rw [Option.mapM_none]
      constructor
      · intro done
        cases done
        exact .none
      · intro both
        cases both
        rfl
  | some a =>
      rw [Option.mapM_some, map_eq_pure_bind, bind_eq_ok]
      constructor
      · rintro ⟨b, done, same⟩
        cases same
        exact .some done
      · intro both
        cases both with
        | some done => exact ⟨_, done, rfl⟩

/-- All steps succeed exactly if the outcomes are results only. -/
theorem mapM_eq_ok_iff_map {f : α → Except ε β} {xs : List α} {ys : List β} :
    xs.mapM f = .ok ys ↔ xs.map f = ys.map .ok := by
  rw [mapM_eq_ok, ← List.forall₂_eq_eq_eq, List.forall₂_map_left_iff, List.forall₂_map_right_iff]

/-- Which results there are does not hang on how failures are told. -/
theorem map_eq_map_ok_congr {ε' : Type u} {f : α → Except ε β} {g : α → Except ε' β}
    (same : ∀ x y, f x = .ok y ↔ g x = .ok y) {xs : List α} {ys : List β} :
    xs.map f = ys.map .ok ↔ xs.map g = ys.map .ok := by
  rw [← mapM_eq_ok_iff_map, ← mapM_eq_ok_iff_map, mapM_eq_ok, mapM_eq_ok]
  simp only [same]

/-- Where every outcome is a result, the outcomes are results only. -/
theorem exists_eq_map_ok {xs : List (Except ε β)} :
    (∃ ys : List β, xs = ys.map .ok) ↔ ∀ x ∈ xs, ∃ y, x = .ok y := by
  constructor
  · rintro ⟨ys, rfl⟩ x mem
    obtain ⟨y, -, rfl⟩ := List.mem_map.1 mem
    exact ⟨y, rfl⟩
  · intro all
    induction xs with
    | nil => exact ⟨[], rfl⟩
    | cons x xs ih =>
        obtain ⟨y, rfl⟩ := all x List.mem_cons_self
        obtain ⟨ys, rfl⟩ := ih fun x mem => all x (List.mem_cons_of_mem _ mem)
        exact ⟨y :: ys, rfl⟩

/-- In whichever order the outcomes are looked at. -/
theorem exists_eq_map_ok_of_perm {xs xs' : List (Except ε β)} (same : xs.Perm xs') :
    (∃ ys : List β, xs = ys.map .ok) ↔ ∀ x ∈ xs', ∃ y, x = .ok y := by
  rw [exists_eq_map_ok]
  exact forall_congr' fun x => imp_congr_left same.mem_iff

/-- All steps succeed if each of them does. -/
theorem exists_mapM_eq_ok {f : α → Except ε β} {xs : List α} :
    (∃ ys, xs.mapM f = .ok ys) ↔ ∀ x ∈ xs, ∃ y, f x = .ok y := by
  simp only [mapM_eq_ok_iff_map]
  rw [exists_eq_map_ok, List.forall_mem_map]

/-- Outcomes that follow one another are results only if both parts are. -/
theorem append_eq_map_ok {xs xs' : List (Except ε β)} {ys : List β} :
    xs ++ xs' = ys.map .ok ↔
      ∃ zs zs', ys = zs ++ zs' ∧ xs = zs.map .ok ∧ xs' = zs'.map .ok := by
  rw [eq_comm, List.map_eq_append_iff]
  simp only [eq_comm]

/-- A single outcome is a single result. -/
theorem eq_singleton_of_perm {xs : List (Except ε β)} {ys : List β} {y : β}
    (same : xs.Perm (ys.map .ok)) (single : xs = [.ok y]) : ys = [y] := by
  rw [single] at same
  obtain ⟨y', rfl, done⟩ := List.map_eq_singleton_iff.1 (List.singleton_perm.1 same).symm
  cases done
  rfl

/-- Every result is that of some member. -/
theorem exists_of_mapM_eq_ok {f : α → Except ε β} {xs : List α} {ys : List β} {y : β}
    (done : xs.mapM f = .ok ys) (mem : y ∈ ys) : ∃ x ∈ xs, f x = .ok y := by
  have each := mapM_eq_ok.1 done
  obtain ⟨j, inside, rfl⟩ := List.mem_iff_getElem.1 mem
  have inXs : j < xs.length := each.length_eq ▸ inside
  exact ⟨xs[j], List.getElem_mem inXs, each.get inXs inside⟩

/-! ## Failures -/

theorem bind_eq_error {x : Except ε α} {f : α → Except ε β} {cause : ε} :
    x >>= f = .error cause ↔ x = .error cause ∨ ∃ a, x = .ok a ∧ f a = .error cause := by
  cases x with
  | error e =>
      constructor
      · intro failed
        cases failed
        exact .inl rfl
      · rintro (failed | ⟨_, impossible, _⟩)
        · cases failed
          rfl
        · cases impossible
  | ok a =>
      constructor
      · intro failed
        exact .inr ⟨a, rfl, failed⟩
      · rintro (impossible | ⟨_, same, failed⟩)
        · cases impossible
        · cases same
          exact failed

/-- A step does not fail for a cause of some kind. -/
def Avoids (kind : ε → Prop) (x : Except ε α) : Prop := ∀ cause, x = .error cause → ¬ kind cause

namespace Avoids

variable {kind : ε → Prop}

theorem ok (a : α) : Avoids kind (.ok a : Except ε α) := nofun

theorem error {cause : ε} (other : ¬ kind cause) : Avoids kind (.error cause : Except ε α) := by
  intro cause' failed
  cases failed
  exact other

theorem ne {x : Except ε α} (avoids : Avoids kind x) {cause : ε} (known : kind cause) :
    x ≠ .error cause := fun failed => avoids cause failed known

theorem bind {x : Except ε α} {f : α → Except ε β} (first : Avoids kind x)
    (next : ∀ a, Avoids kind (f a)) : Avoids kind (x >>= f) := by
  intro cause failed
  rcases bind_eq_error.1 failed with failed | ⟨a, -, failed⟩
  · exact first cause failed
  · exact next a cause failed

theorem mapM {f : α → Except ε β} {xs : List α} (each : ∀ x, Avoids kind (f x)) :
    Avoids kind (xs.mapM f) := by
  induction xs with
  | nil => exact ok []
  | cons x xs ih =>
      rw [List.mapM_cons]
      exact (each x).bind fun _ => ih.bind fun _ => ok _

end Avoids

end MediaSniff.Outcome
