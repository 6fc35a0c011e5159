/-
# MediaSniff.Proofs.Text.Marks — lowercasing leaves marks alone

Digits and most of the ASCII punctuation, among it the star, the brackets and the dash of
filename patterns, have no lowercase form but themselves and are the lowercase form of
nothing else. So a text holds such a mark exactly if its lowercase form does
(`mark_mem_lowercase`), and what a pattern means by its marks does not hang on case.
-/
import MediaSniff.Text.Lowercase

set_option autoImplicit false

namespace MediaSniff.Text

/-- The printing ASCII characters below the small letters, without the capital ones. -/
def isMark (c : Char) : Bool := 0x20 ≤ c.toNat && c.toNat < 0x61 && !c.isUpper

theorem caseRuns_target : ∀ run ∈ caseRuns, 0x61 ≤ run.target := by decide +kernel

theorem toNat_ofNat_of_pos {n : Nat} (written : 0 < (Char.ofNat n).toNat) :
    (Char.ofNat n).toNat = n := by
  by_cases valid : n.isValidChar
  · have whole : Char.ofNat n = Char.ofNatAux n valid := dif_pos valid
    rw [whole]
    rfl
  · have none : Char.ofNat n = '\x00' := dif_neg valid
    rw [none] at written
    exact absurd written (by decide)

/-- An ASCII letter is made small; a mark comes from no letter. -/
theorem mark_eq_toLower {c d : Char} (mark : isMark c = true) : c = d.toLower ↔ c = d := by
  simp only [isMark, Bool.and_eq_true, decide_eq_true_eq, Bool.not_eq_true'] at mark
  obtain ⟨⟨low, high⟩, notUpper⟩ := mark
  unfold Char.toLower
  split
  · rename_i upper
    have bounds : 0x41 ≤ d.toNat ∧ d.toNat ≤ 0x5A := by
      simp only [ge_iff_le, UInt32.le_iff_toNat_le] at upper
      exact upper
    refine iff_of_false (fun same => ?_) (fun same => ?_)
    · have code : c.toNat = (d.val + 0x20).toNat := by
        rw [same]
        rfl
      rw [UInt32.toNat_add, Char.toNat_val] at code
      simp only [UInt32.reduceToNat] at code
      omega
    · rw [same] at notUpper
      exact of_decide_eq_false notUpper upper
  · rfl

/-- The lowercase form of a character holds a mark only if the character is that mark. -/
theorem mark_mem_lowerChar {c d : Char} (mark : isMark c = true) : c ∈ lowerChar d ↔ c = d := by
  unfold lowerChar
  split
  · rw [List.mem_singleton, mark_eq_toLower mark]
  · rename_i large
    simp only [isMark, Bool.and_eq_true, decide_eq_true_eq] at mark
    have high : c.toNat < 0x61 := mark.1.2
    have differ : c ≠ d := by
      rintro rfl
      exact large (UInt32.lt_iff_toNat_lt.2 (Nat.lt_trans high (by decide)))
    refine iff_of_false ?_ differ
    split
    · intro mem
      simp only [List.mem_cons, List.not_mem_nil, or_false] at mem
      rcases mem with rfl | rfl <;> revert high <;> decide
    · split
      · rename_i run found
        intro mem
        rw [List.mem_singleton] at mem
        have target := caseRuns_target run (List.mem_of_find?_eq_some found)
        have code : c.toNat = run.target + (d.toNat - run.first) := by
          rw [mem]
          apply toNat_ofNat_of_pos
          rw [← mem]
          omega
        omega
      · simpa using differ

/-- Neither form of the small sigma is a mark. -/
theorem mark_mem_lowered {c d : Char} (mark : isMark c = true) (ends : Bool) :
    c ∈ (if d = 'Σ' then [if ends then 'ς' else 'σ'] else lowerChar d) ↔ c = d := by
  split
  · rename_i sigma
    refine iff_of_false (fun mem => ?_) (fun same => ?_)
    · rw [List.mem_singleton] at mem
      split at mem <;> subst mem <;> revert mark <;> decide
    · rw [same, sigma] at mark
      revert mark
      decide
  · exact mark_mem_lowerChar mark

theorem mark_mem_lowerAfter {c : Char} (mark : isMark c = true) {before cs : List Char} :
    c ∈ lowerAfter before cs ↔ c ∈ cs := by
  induction cs generalizing before with
  | nil => exact Iff.rfl
  | cons d rest ih => rw [lowerAfter, List.mem_append, mark_mem_lowered mark, ih, List.mem_cons]

/-- **Lowercasing makes and removes no mark.** -/
theorem mark_mem_lowercase {c : Char} (mark : isMark c = true) {s : String} :
    c ∈ (lowercase s).toList ↔ c ∈ s.toList := by
  rw [lowercase, String.toList_ofList, mark_mem_lowerAfter mark]

end MediaSniff.Text
