/-
# MediaSniff.Proofs.Registry.Lookup — what a name is the name of

The table of names is filled in two rounds, first with the canonical names, of which a
later one takes the place of an equal earlier one, then with the aliases, which take no
place. So a lookup can be answered from the records alone: the last type of that name if
there is one, and otherwise the first that claims it as an alias (`lookup?_ofList`).
-/
import MediaSniff.Proofs.Grouping
import MediaSniff.Registry.Basic

set_option autoImplicit false

namespace MediaSniff.Registry

theorem isSome_get?_iff {r : Registry} {id : TypeId} : (r.get? id).isSome ↔ id.index < r.size := by
  rw [get?, isSome_getElem?, size]

theorem getElem?_enterNames (names : Std.HashMap String TypeId)
    (entries : List (TypeId × TypeRecord)) (name : String) :
    (enterNames names entries)[name]? =
      ((entries.reverse.find? fun e => e.2.name == name).map (·.1)).or names[name]? :=
  getElem?_foldl_insert (fun e : TypeId × TypeRecord => e.2.name) (·.1) entries names name

theorem getElem?_foldl_insertIfNew (names : Std.HashMap String TypeId) (id : TypeId)
    (aliases : List String) (name : String) :
    (aliases.foldl (fun names a => names.insertIfNew a id) names)[name]? =
      names[name]?.or (if aliases.contains name then some id else none) := by
  induction aliases generalizing names with
  | nil => exact (Option.or_none).symm
  | cons a aliases ih =>
      rw [List.foldl_cons, ih, Std.HashMap.getElem?_insertIfNew]
      by_cases same : a = name
      · subst same
        cases known : names[a]? with
        | some id' =>
            have old : a ∈ names := Std.HashMap.mem_iff_isSome_getElem?.2 (by simp [known])
            simp [old]
        | none =>
            have new : a ∉ names := by simpa using known
            simp [new]
      · have other : name ≠ a := fun h => same h.symm
        simp [same, other]

theorem getElem?_enterAliases (names : Std.HashMap String TypeId)
    (entries : List (TypeId × TypeRecord)) (name : String) :
    (enterAliases names entries)[name]? =
      names[name]?.or ((entries.find? fun e => e.2.aliases.contains name).map (·.1)) := by
  induction entries generalizing names with
  | nil => exact (Option.or_none).symm
  | cons e entries ih =>
      rw [enterAliases, List.foldl_cons, ← enterAliases, ih, getElem?_foldl_insertIfNew,
        Option.or_assoc, List.find?_cons]
      cases e.2.aliases.contains name with
      | true => rfl
      | false => rfl

/-- **Looking a name up.** The last type of that name has it, or else the first that
claims it as an alias. -/
theorem lookup?_ofList (records : List TypeRecord) (name : String) :
    (ofList records).lookup? name =
      (((numbered records).reverse.find? fun e => e.2.name == name).or
        ((numbered records).find? fun e => e.2.aliases.contains name)).map (·.1) := by
  rw [lookup?, ofList, getElem?_enterAliases, getElem?_enterNames, Option.map_or]
  simp

end MediaSniff.Registry
