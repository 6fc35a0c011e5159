/-
# MediaSniff.Proofs.Json.Fields — the fields of a record

The fields of a record are found among the members of an object by their names. A name that
stands once has one value, and a reader that takes the last of several finds the same
(`member?_of_fields?`). Written as an object, with those that are absent left out, the fields of
a record are read back (`fields?_present`).
-/
import MediaSniff.Json.Fields
import MediaSniff.Json.Whole
import MediaSniff.Proofs.Json.Printing
import Mathlib.Data.List.Forall2
import Mathlib.Data.List.Nodup

set_option autoImplicit false

namespace MediaSniff.Json

variable {α β : Type}

/-! ## Lists of results -/

theorem mapM_eq_some {read? : α → Option β} {xs : List α} {ys : List β} :
    xs.mapM read? = some ys ↔ List.Forall₂ (fun x y => read? x = some y) xs ys := by
  induction xs generalizing ys with
  | nil =>
      rw [List.mapM_nil, List.forall₂_nil_left_iff]
      exact ⟨fun read => (Option.some.inj read).symm, fun none => congrArg some none.symm⟩
  | cons x xs ih =>
      rw [List.mapM_cons, List.forall₂_cons_left_iff]
      simp only [Option.bind_eq_bind, Option.bind_eq_some_iff, ih]
      constructor
      · rintro ⟨y, first, ys', others, whole⟩
        exact ⟨y, ys', first, others, (Option.some.inj whole).symm⟩
      · rintro ⟨y, ys', first, others, rfl⟩
        exact ⟨y, first, ys', others, rfl⟩

theorem mapM_map_eq_some {read? : β → Option α} {write : α → β} {xs : List α}
    (each : ∀ x ∈ xs, read? (write x) = some x) : (xs.map write).mapM read? = some xs := by
  rw [mapM_eq_some, List.forall₂_map_left_iff, List.forall₂_same]
  exact each

/-- Every result is that of some member. -/
theorem exists_of_mapM_eq_some {read? : α → Option β} {xs : List α} {ys : List β} {y : β}
    (read : xs.mapM read? = some ys) (mem : y ∈ ys) : ∃ x, read? x = some y := by
  have each := mapM_eq_some.1 read
  obtain ⟨j, inside, rfl⟩ := List.mem_iff_getElem.1 mem
  have inXs : j < xs.length := each.length_eq ▸ inside
  exact ⟨xs[j], each.get inXs inside⟩

/-! ## Members -/

theorem keyed?_eq_some {members : List (Option String × Json)} {ms : List (String × Json)} :
    keyed? members = some ms ↔ members = ms.map fun m => (some m.1, m.2) := by
  induction members generalizing ms with
  | nil => cases ms <;> simp [keyed?]
  | cons m members ih =>
      obtain ⟨key, v⟩ := m
      cases key with
      | none => cases ms <;> simp [keyed?]
      | some key =>
          rw [keyed?]
          simp only [Option.map_eq_some_iff, ih]
          constructor
          · rintro ⟨others, rfl, rfl⟩
            rfl
          · intro same
            cases ms with
            | nil => cases same
            | cons m ms =>
                rw [List.map_cons, List.cons.injEq, Prod.mk.injEq, Option.some.injEq] at same
                obtain ⟨⟨rfl, rfl⟩, others⟩ := same
                exact ⟨ms, others, rfl⟩

/-- The value of a key that stands once is the last one. -/
theorem member?_of_field? {ms : List (String × Json)} {name : String} {f : Option Json}
    (read : field? ms name = some f) :
    (Json.object (ms.map fun m => (some m.1, m.2))).member? name = f := by
  have same : (ms.map fun m => (some m.1, m.2)).filter (·.1 == some name) =
      (ms.filter (·.1 == name)).map fun m => (some m.1, m.2) := by
    rw [List.filter_map]
    rfl
  rw [member?, same]
  unfold field? at read
  split at read
  · rename_i none
    cases read
    rw [none]
    rfl
  · rename_i m single
    cases read
    rw [single]
    rfl
  · cases read

/-- **Two readers agree**: the one that knows the fields of a record, and the one that takes of
each key the last value. -/
theorem member?_of_fields? {names : List String} {members : List (Option String × Json)}
    {fields : List (Option Json)} (read : fields? names (.object members) = some fields) :
    List.Forall₂ (fun name f => (Json.object members).member? name = f) names fields := by
  obtain ⟨ms, keyed, values⟩ := Option.bind_eq_some_iff.1 read
  obtain rfl := keyed?_eq_some.1 keyed
  exact (mapM_eq_some.1 values).imp fun _ _ => member?_of_field?

/-! ## Written fields -/

/-- The members for the fields of a record, of which some may be absent. -/
def present (fields : List (String × Option Json)) : List (String × Json) :=
  fields.flatMap fun f => (f.2.map (f.1, ·)).toList

theorem filter_present {fields : List (String × Option Json)} (once : (fields.map (·.1)).Nodup)
    {f : String × Option Json} (mem : f ∈ fields) :
    (present fields).filter (·.1 == f.1) = (f.2.map (f.1, ·)).toList := by
  have own (g : String × Option Json) (name : String) :
      ((g.2.map (g.1, ·)).toList.filter (·.1 == name)) =
        if g.1 = name then (g.2.map (g.1, ·)).toList else [] := by
    cases g.2 <;> by_cases same : g.1 = name <;> simp [same]
  have absent {fields : List (String × Option Json)} {name : String}
      (other : name ∉ fields.map (·.1)) : (present fields).filter (·.1 == name) = [] := by
    rw [present, List.filter_flatMap, List.flatMap_eq_nil_iff]
    intro g mem
    rw [own, if_neg]
    rintro rfl
    exact other (List.mem_map_of_mem mem)
  induction fields with
  | nil => cases mem
  | cons g fields ih =>
      obtain ⟨new, once⟩ := List.nodup_cons.1 once
      rw [present, List.flatMap_cons, List.filter_append, own, ← present]
      rcases List.mem_cons.1 mem with rfl | later
      · rw [if_pos rfl, absent new, List.append_nil]
      · rw [if_neg, ih once later, List.nil_append]
        intro same
        have listed : f.1 ∈ fields.map (·.1) := List.mem_map_of_mem later
        rw [← same] at listed
        exact new listed

/-- **Written fields are read back.** -/
theorem fields?_present (fields : List (String × Option Json))
    (once : (fields.map (·.1)).Nodup) :
    fields? (fields.map (·.1)) (.ofMembers (present fields)) = some (fields.map (·.2)) := by
  have keyed : keyed? ((present fields).map fun m => (some m.1, m.2)) = some (present fields) :=
    keyed?_eq_some.2 rfl
  have each : ∀ f ∈ fields, field? (present fields) f.1 = some f.2 := by
    intro f mem
    rw [field?, filter_present once mem]
    cases f.2 <;> rfl
  rw [ofMembers, fields?, keyed, Option.bind_some, mapM_eq_some, List.forall₂_map_left_iff,
    List.forall₂_map_right_iff, List.forall₂_same]
  exact each

/-- A field that is absent, or there with a value whose numbers are numbers. -/
def ProperField (f : Option Json) : Prop := ∀ v ∈ f, v.Proper

/-- A record is proper if its fields are. -/
theorem proper_present {fields : List (String × Option Json)}
    (each : fields.Forall fun f => ProperField f.2) : (ofMembers (present fields)).Proper := by
  refine .object fun m mem => ?_
  obtain ⟨m', written, rfl⟩ := List.mem_map.1 mem
  obtain ⟨f, field, own⟩ := List.mem_flatMap.1 written
  obtain ⟨v, given, rfl⟩ := Option.map_eq_some_iff.1 (Option.mem_toList.1 own)
  exact List.forall_iff_forall_mem.1 each f field v given

theorem proper_elements {elements : List Json} (each : elements.Forall Proper) :
    (Json.array elements).Proper :=
  .array (List.forall_iff_forall_mem.1 each)

theorem proper_members {members : List (Option String × Json)}
    (each : members.Forall fun m => m.2.Proper) : (Json.object members).Proper :=
  .object (List.forall_iff_forall_mem.1 each)

/-! ## Values of fields -/

theorem optional_text (text : Option String) : optional text? (text.map ofString) = some text := by
  cases text <;> rfl

/-- A number of 32 bits is written with as many digits as it takes. -/
theorem optional_natural {f : Option Json} {n : Option Nat}
    (read : optional unsigned32? f = some n) : optional unsigned32? (n.map ofNat) = some n := by
  cases n with
  | none => rfl
  | some n =>
      have small : n < Nat.pow 2 32 := by
        unfold optional at read
        split at read
        · cases read
        · cases read
        · rename_i v _
          obtain ⟨n', number, same⟩ := Option.map_eq_some_iff.1 read
          obtain rfl := Option.some.inj same
          cases v with
          | number n => exact Number.lt_of_toNat? number
          | _ => cases number
      show (unsigned32? (ofNat n)).map some = some (some n)
      rw [ofNat, unsigned32?, Number.toNat?_ofNat small, Option.map_some]

end MediaSniff.Json
