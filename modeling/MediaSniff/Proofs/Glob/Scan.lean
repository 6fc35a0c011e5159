/-
# MediaSniff.Proofs.Glob.Scan — every rule tried on a name

What a name speaks for can be found without an index: keep the rules that accept it, put
them in the order of their `standing`, and read off their candidates (`plainScan`).

A standing holds all that a candidate tells of its rule, so level rules have one candidate,
and it does not matter which of them comes first: two lists of the same rules in the order
of standings have the same candidates (`map_candidate_eq`).
-/
import MediaSniff.Glob.Index
import Mathlib.Data.List.Sort
import Mathlib.Data.Prod.Lex

set_option autoImplicit false

namespace MediaSniff.Glob

open OrderDual (toDual ofDual)

/-- Whether the rule accepts a name: as it is written, or lowercased if the rule ignores
case. -/
def acceptsName (g : Glob) (name : String) : Bool :=
  g.accepts (Text.utf8 (if g.caseSensitive then name else Text.lowercase name))

/-- Whole names stand before beginnings and ends, and those before bracket patterns. -/
def Shape.group : Shape → Nat
  | .exact _ => 0
  | .leading _ => 1
  | .trailing _ => 1
  | .pattern _ => 2

/-- How many bytes count when two rules of one group are compared: all that a beginning,
an end or a pattern pins down. Rules for whole names do not differ in this. -/
def Shape.reach : Shape → Nat
  | .exact _ => 0
  | .leading text => text.length
  | .trailing text => text.length
  | .pattern p => p.width

/-- Among rules of one group and one reach, those that heed case stand before those that
ignore it; where case is treated alike, an end stands before a beginning. -/
def side (g : Glob) : Nat :=
  match g.shape, g.caseSensitive with
  | .exact _, heeded => if heeded then 0 else 1
  | .trailing _, heeded => if heeded then 0 else 2
  | .leading _, heeded => if heeded then 1 else 3
  | .pattern _, heeded => if heeded then 0 else 1

/-- What decides between candidates, the first difference counting: more weight, the
earlier group, the longer reach, the earlier side, the earlier type. -/
abbrev Standing := ℕᵒᵈ ×ₗ ℕ ×ₗ ℕᵒᵈ ×ₗ ℕ ×ₗ ℕ

def standing (g : Glob) : Standing :=
  toLex (toDual g.weight, toLex (g.shape.group,
    toLex (toDual g.shape.reach, toLex (g.side, g.owner.index))))

/-- All candidates for a name, found by trying every rule. -/
def plainScan (globs : List Glob) (unknown : TypeId) (name : String) : List Candidate :=
  match globs.filter (·.acceptsName name) with
  | [] => [⟨0, unknown⟩]
  | found => (found.mergeSort fun a b => a.standing ≤ b.standing).map candidate

/-- A candidate is told by the standing of its rule. -/
def Standing.candidate (s : Standing) : Candidate :=
  ⟨ofDual (ofLex s).1, ⟨(ofLex (ofLex (ofLex (ofLex s).2).2).2).2⟩⟩

theorem candidate_standing (g : Glob) : g.standing.candidate = g.candidate := rfl

/-- Two lists of the same rules, both in the order of standings, have the same candidates,
whatever the order of level rules. -/
theorem map_candidate_eq {found found' : List Glob} (same : found.Perm found')
    (inOrder : found.Pairwise fun a b => a.standing ≤ b.standing)
    (inOrder' : found'.Pairwise fun a b => a.standing ≤ b.standing) :
    found.map candidate = found'.map candidate := by
  have standings : found.map standing = found'.map standing := by
    exact List.Perm.eq_of_pairwise (fun _ _ _ _ => le_antisymm) (List.pairwise_map.2 inOrder)
      (List.pairwise_map.2 inOrder') (same.map standing)
  have readOff : (found.map standing).map Standing.candidate =
      (found'.map standing).map Standing.candidate := congrArg _ standings
  simpa only [List.map_map, Function.comp_def, candidate_standing] using readOff

theorem standing_mergeSort_pairwise (globs : List Glob) :
    (globs.mergeSort fun a b => a.standing ≤ b.standing).Pairwise
      fun a b => a.standing ≤ b.standing := by
  have sorted : (globs.mergeSort fun a b => a.standing ≤ b.standing).Pairwise fun a b =>
      decide (a.standing ≤ b.standing) = true := by
    apply List.pairwise_mergeSort
    · intro a b c ab bc
      simp only [decide_eq_true_eq] at ab bc ⊢
      exact ab.trans bc
    · intro a b
      simp only [Bool.or_eq_true, decide_eq_true_eq]
      exact le_total _ _
  exact sorted.imp of_decide_eq_true

end MediaSniff.Glob
