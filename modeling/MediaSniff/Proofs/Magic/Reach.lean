/-
# MediaSniff.Proofs.Magic.Reach — content rules look at a beginning

A byte test looks at no byte behind its extent, a signature at none behind the largest
extent of its tests, and a table at none behind the largest of its signatures. So bytes
behind the reach of a table make no difference to which of its signatures match
(`Table.matching_take`).

A table without reach has no test to try, and nothing matches (`Table.matching_eq_nil`).
This needs that every test asks for at least one byte, which is part of compiling.
-/
import MediaSniff.Magic.Table
import MediaSniff.Proofs.Magic.Chain

set_option autoImplicit false

namespace MediaSniff

section Largest

variable {α : Type} (f : α → Nat)

theorem foldl_max_eq (l : List α) :
    l.foldl (fun most a => max most (f a)) 0 = (l.map f).max?.getD 0 := by
  rw [← List.foldl_map, List.foldl_max, Nat.zero_max]

theorem le_foldl_max {l : List α} {a : α} (mem : a ∈ l) :
    f a ≤ l.foldl (fun most a => max most (f a)) 0 := by
  rw [foldl_max_eq]
  exact List.le_max?_getD_of_mem (List.mem_map_of_mem mem)

end Largest

namespace Magic

open Descriptor (MatchRule)

/-! ## Byte tests -/

theorem agrees_take {data pattern : Bytes} {reach i : Nat}
    (fits : i + pattern.length ≤ (data.take reach).length) :
    agrees (data.take reach).toByteArray pattern.toByteArray i =
      agrees data.toByteArray pattern.toByteArray i := by
  have room : i + pattern.length ≤ data.length :=
    Nat.le_trans fits (List.length_take_le' reach data)
  have near : i + pattern.length ≤ reach := by
    rw [List.length_take] at fits
    omega
  rw [Bool.eq_iff_iff, agrees_iff fits, agrees_iff room]
  refine forall_congr' fun j => forall_congr' fun inside => ?_
  rw [List.getElem?_take_of_lt (by omega)]

theorem agreesUnder_take {data mask pattern : Bytes} {reach i : Nat}
    (near : i + pattern.length ≤ reach) :
    agreesUnder (data.take reach).toByteArray mask pattern i =
      agreesUnder data.toByteArray mask pattern i := by
  induction pattern generalizing mask i with
  | nil => cases mask <;> rfl
  | cons p pattern ih =>
      cases mask with
      | nil => rfl
      | cons m mask =>
          rw [List.length_cons] at near
          have later : agreesUnder (data.take reach).toByteArray mask pattern (i + 1) =
              agreesUnder data.toByteArray mask pattern (i + 1) := ih (by omega)
          rw [agreesUnder, agreesUnder, getElem?_toByteArray, getElem?_toByteArray,
            List.getElem?_take_of_lt (by omega), later]

namespace Node

/-- A test that cannot look behind a position tries the same positions on everything that
goes at least so far. -/
theorem positions_min {n : Node} {reach : Nat} (inside : n.extent ≤ reach) (size : Nat) :
    n.positions (min reach size) = n.positions size := by
  rw [extent] at inside
  unfold positions
  by_cases fits : n.start + n.pattern.length ≤ size
  · rw [if_pos (by omega), if_pos fits]
    congr 2
    omega
  · rw [if_neg (by omega), if_neg fits]

theorem fitsAt_take {n : Node} {data : Bytes} {reach i : Nat}
    (fits : i + n.pattern.length ≤ (data.take reach).length) :
    n.fitsAt (data.take reach).toByteArray n.pattern.toByteArray i =
      n.fitsAt data.toByteArray n.pattern.toByteArray i := by
  unfold fitsAt
  split
  · exact agrees_take fits
  · apply agreesUnder_take
    rw [List.length_take] at fits
    omega

/-- **A test looks at no byte behind its extent.** -/
theorem holds_take {n : Node} {reach : Nat} (inside : n.extent ≤ reach) (data : Bytes) :
    n.holds (data.take reach).toByteArray = n.holds data.toByteArray := by
  rw [holds_eq_any, holds_eq_any, List.size_toByteArray, List.size_toByteArray,
    List.length_take, positions_min inside, Bool.eq_iff_iff, List.any_eq_true, List.any_eq_true]
  refine exists_congr fun i => and_congr_right fun tried => ?_
  rw [fitsAt_take]
  obtain ⟨-, high, room⟩ := mem_positions.1 tried
  rw [extent] at inside
  rw [List.length_take]
  omega

end Node

/-! ## Signatures and tables -/

theorem Signature.extent_label_le {s : Signature} {c : Cell Node} (mem : c ∈ s.arena.nodes) :
    c.label.extent ≤ s.extent := by
  rw [Signature.extent, ← Array.foldl_toList]
  exact le_foldl_max (fun c : Cell Node => c.label.extent) (Array.mem_toList_iff.2 mem)

theorem Signature.accepts_take {s : Signature} {reach : Nat} (inside : s.extent ≤ reach)
    (data : Bytes) : s.accepts (data.take reach).toByteArray = s.accepts data.toByteArray := by
  apply Arena.someWay_congr
  intro c mem
  exact Node.holds_take (Nat.le_trans (extent_label_le mem) inside) data

theorem Compiled.extent_pos {rule : MatchRule} {t : Tree Node} (compiled : Compiled rule t) :
    0 < t.label.extent := by
  cases compiled with
  | node label _ _ =>
      obtain ⟨r, written, covered, rfl⟩ := compileNode_eq_ok label
      have long : 0 < r.pattern.length := by
        rw [r.length_pattern covered]
        exact List.length_pos_iff.2 written
      show 0 < r.start + r.window + r.pattern.length
      omega

/-- A compiled signature that matches anything has some extent. -/
theorem Signature.extent_pos {owner : TypeId} {priority : Option Nat} {rules : List MatchRule}
    {s : Signature} {data : Bytes} (compiled : Signature.compile owner priority rules = .ok s)
    (accepted : s.accepts data.toByteArray = true) : 0 < s.extent := by
  obtain ⟨trees, done, arena⟩ := compile_arena compiled
  have each := compileForest_compiled done
  rw [Signature.accepts, arena, Arena.someWay_ofForest] at accepted
  obtain ⟨t, mem, -⟩ := accepted
  obtain ⟨k, inTrees, rfl⟩ := List.mem_iff_getElem.1 mem
  obtain ⟨c, inArena, label⟩ := (Arena.laid_ofForest trees k inTrees).exists_cell
  have inside : c.label.extent ≤ s.extent := by
    apply extent_label_le
    rwa [arena, ← Array.mem_toList_iff]
  have asks : 0 < trees[k].label.extent :=
    (each.get (each.length_eq ▸ inTrees) inTrees).extent_pos
  rw [label] at inside
  exact Nat.lt_of_lt_of_le asks inside

namespace Table

variable {t : Table}

theorem extent_le {s : Signature} (mem : s ∈ t.signatures) : s.extent ≤ t.longestExtent :=
  le_foldl_max Signature.extent mem

/-- **Bytes behind the reach of a table make no difference.** -/
theorem matching_take {reach : Nat} (inside : t.longestExtent ≤ reach) (data : Bytes) :
    t.matching (data.take reach) = t.matching data := by
  rw [matching, matching]
  congr 1
  apply List.filter_congr
  intro s mem
  exact Signature.accepts_take (Nat.le_trans (extent_le mem) inside) data

/-- Without reach nothing matches. -/
theorem matching_eq_nil (compiled : ∀ s ∈ t.signatures, ∃ owner priority rules,
      Signature.compile owner priority rules = .ok s)
    (blind : t.longestExtent = 0) (data : Bytes) : t.matching data = [] := by
  rw [matching, List.map_eq_nil_iff, List.filter_eq_nil_iff]
  intro s mem accepted
  obtain ⟨owner, priority, rules, done⟩ := compiled s mem
  have looks := Signature.extent_pos done accepted
  have inside := extent_le mem
  omega

end Table

end Magic

end MediaSniff
