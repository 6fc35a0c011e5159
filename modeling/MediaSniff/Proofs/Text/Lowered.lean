/-
# MediaSniff.Proofs.Text.Lowered — lowercased texts

What has been lowercased stays as it is when it is lowercased again, wherever it is put
(`lowerAfter_lowerAfter`). What the table of capitals makes of one of them is none of them
(`notMem_capitals`), so no character of a lowercase form has another. None is a capital sigma, so
none hangs on what stands around it.
-/
import MediaSniff.Proofs.Text.Marks

set_option autoImplicit false

namespace MediaSniff.Text

/-! ## Capitals and small letters -/

/-- The codes that lie from `start` on as the capitals of a run lie from its first on. -/
def CaseRun.codesFrom (r : CaseRun) (start : Nat) : List Nat :=
  List.range' start ((r.last - r.first) / r.stride + 1) r.stride

theorem CaseRun.mem_codesFrom {r : CaseRun} {code : Nat} (covered : r.covers code = true)
    (start : Nat) : start + (code - r.first) ∈ r.codesFrom start := by
  simp only [covers, Bool.and_eq_true, decide_eq_true_eq, beq_iff_eq] at covered
  obtain ⟨⟨-, high⟩, step⟩ := covered
  have whole : r.stride * ((code - r.first) / r.stride) = code - r.first :=
    Nat.mul_div_cancel' (Nat.dvd_of_mod_eq_zero step)
  refine List.mem_range'.2 ⟨(code - r.first) / r.stride, Nat.lt_succ_of_le ?_, by rw [whole]⟩
  exact Nat.div_le_div_right (Nat.sub_le_sub_right high _)

/-- The capitals from U+0080 on. -/
def capitals : List Nat := 'İ'.toNat :: caseRuns.flatMap fun r => r.codesFrom r.first

/-- What the runs make of their capitals. -/
def smalls : List Nat := caseRuns.flatMap fun r => r.codesFrom r.target

theorem mem_capitals {r : CaseRun} (listed : r ∈ caseRuns) {code : Nat}
    (covered : r.covers code = true) : code ∈ capitals := by
  have low : r.first ≤ code := by
    simp only [CaseRun.covers, Bool.and_eq_true, decide_eq_true_eq] at covered
    exact covered.1.1
  have among := r.mem_codesFrom covered r.first
  rw [Nat.add_sub_cancel' low] at among
  exact List.mem_cons_of_mem _ (List.mem_flatMap.2 ⟨r, listed, among⟩)

/-- Numbers as the bits of one number. -/
def bitSet (codes : List Nat) : Nat := codes.foldr (fun code bits => bits ||| 1 <<< code) 0

theorem testBit_bitSet {codes : List Nat} {code : Nat} :
    (bitSet codes).testBit code = true ↔ code ∈ codes := by
  induction codes with
  | nil => simp [bitSet]
  | cons c codes ih =>
      rw [bitSet, List.foldr_cons, ← bitSet, Nat.testBit_or, Bool.or_eq_true, ih, Nat.one_shiftLeft,
        Nat.testBit_two_pow, decide_eq_true_eq, List.mem_cons, eq_comm, or_comm]

/-- One comparison of two long numbers stands for some two million of two codes. -/
theorem capitals_smalls : bitSet capitals &&& bitSet smalls = 0 := by decide +kernel

/-- **No small letter is a capital.** -/
theorem notMem_capitals {code : Nat} (small : code ∈ smalls) : code ∉ capitals := by
  intro capital
  have both : (bitSet capitals &&& bitSet smalls).testBit code = true := by
    rw [Nat.testBit_and, testBit_bitSet.2 capital, testBit_bitSet.2 small]
    rfl
  rw [capitals_smalls, Nat.zero_testBit] at both
  cases both

/-! ## Characters -/

theorem isUpper_of_le {c : Char} (high : 0x61 ≤ c.toNat) : c.isUpper = false := by
  apply decide_eq_false
  rintro ⟨-, capital⟩
  have low : c.toNat ≤ 0x5A := UInt32.le_iff_toNat_le.1 capital
  omega

/-- An ASCII capital is made small, and anything else is left alone. -/
theorem toLower_cases (c : Char) :
    (0x61 ≤ c.toLower.toNat ∧ c.toLower.toNat < 0x80) ∨ (c.isUpper = false ∧ c.toLower = c) := by
  unfold Char.toLower
  split
  · rename_i capital
    have low : 0x41 ≤ c.val.toNat := UInt32.le_iff_toNat_le.1 capital.1
    have high : c.val.toNat ≤ 0x5A := UInt32.le_iff_toNat_le.1 capital.2
    have code : (c.val + 0x20).toNat = c.val.toNat + 0x20 := by
      rw [UInt32.toNat_add]
      simp only [UInt32.reduceToNat]
      omega
    left
    change 0x61 ≤ (c.val + 0x20).toNat ∧ (c.val + 0x20).toNat < 0x80
    omega
  · rename_i small
    exact Or.inr ⟨decide_eq_false small, rfl⟩

theorem toLower_eq_self {c : Char} (small : c.isUpper = false) : c.toLower = c := by
  unfold Char.toLower
  split
  · rename_i capital
    exact absurd capital (of_decide_eq_false small)
  · rfl

theorem lowerChar_of_ascii {c : Char} (ascii : c.val < 0x80) (small : c.isUpper = false) :
    lowerChar c = [c] := by
  rw [lowerChar, if_pos ascii, toLower_eq_self small]

theorem lowerChar_toLower {c : Char} (ascii : c.val < 0x80) :
    lowerChar c.toLower = [c.toLower] := by
  rcases toLower_cases c with ⟨high, low⟩ | ⟨small, same⟩
  · exact lowerChar_of_ascii (UInt32.lt_iff_toNat_lt.2 low) (isUpper_of_le high)
  · rw [same]
    exact lowerChar_of_ascii ascii small

theorem lowerChar_of_uncovered {c : Char} (large : ¬ c.val < 0x80) (undotted : c ≠ 'İ')
    (uncovered : caseRuns.find? (·.covers c.toNat) = none) : lowerChar c = [c] := by
  rw [lowerChar, if_neg large, if_neg undotted]
  simp only [uncovered]

/-- What a run makes of one of its capitals is its own lowercase form. -/
theorem lowerChar_of_run {r : CaseRun} (listed : r ∈ caseRuns) {code : Nat}
    (covered : r.covers code = true) {d : Char} (made : d.toNat = r.target + (code - r.first)) :
    lowerChar d = [d] := by
  have high : 0x61 ≤ d.toNat := by
    have target := caseRuns_target r listed
    omega
  have small : d.toNat ∈ smalls :=
    List.mem_flatMap.2 ⟨r, listed, made ▸ r.mem_codesFrom covered r.target⟩
  by_cases ascii : d.val < 0x80
  · exact lowerChar_of_ascii ascii (isUpper_of_le high)
  · refine lowerChar_of_uncovered ascii ?_ (List.find?_eq_none.2 ?_)
    · rintro rfl
      exact notMem_capitals small List.mem_cons_self
    · intro s other capital
      exact notMem_capitals small (mem_capitals other capital)

/-- **The lowercase form of a character** consists of characters that are their own. -/
theorem lowerChar_of_mem_lowerChar {c d : Char} (mem : d ∈ lowerChar c) : lowerChar d = [d] := by
  unfold lowerChar at mem
  split at mem
  · rename_i ascii
    rw [List.mem_singleton.1 mem]
    exact lowerChar_toLower ascii
  · rename_i large
    split at mem
    · simp only [List.mem_cons, List.not_mem_nil, or_false] at mem
      rcases mem with rfl | rfl <;> decide +kernel
    · rename_i undotted
      split at mem
      · rename_i r found
        rw [List.mem_singleton] at mem
        by_cases blank : d = '\x00'
        · rw [blank]
          decide +kernel
        · have written : 0 < (Char.ofNat (r.target + (c.toNat - r.first))).toNat := by
            rw [← mem]
            exact Nat.pos_of_ne_zero fun zero => blank (Char.toNat_inj.1 zero)
          have covered : r.covers c.toNat = true := by simpa using List.find?_some found
          refine lowerChar_of_run (List.mem_of_find?_eq_some found) covered ?_
          rw [mem, toNat_ofNat_of_pos written]
      · rename_i uncovered
        rw [List.mem_singleton.1 mem]
        exact lowerChar_of_uncovered large undotted uncovered

/-! ## Texts -/

variable {before cs : List Char}

/-- No character of a lowercased text changes when it is lowercased. -/
theorem lowerChar_of_mem_lowerAfter {d : Char} (mem : d ∈ lowerAfter before cs) :
    lowerChar d = [d] := by
  induction cs generalizing before with
  | nil => cases mem
  | cons c rest ih =>
      rw [lowerAfter, List.mem_append] at mem
      rcases mem with here | later
      · split at here
        · rw [List.mem_singleton] at here
          split at here <;> rw [here] <;> decide +kernel
        · exact lowerChar_of_mem_lowerChar here
      · exact ih later

/-- A text in which no character changes does not change, whatever it stands behind. -/
theorem lowerAfter_eq_self (fixed : ∀ c ∈ cs, lowerChar c = [c]) : lowerAfter before cs = cs := by
  induction cs generalizing before with
  | nil => rfl
  | cons c rest ih =>
      obtain ⟨here, later⟩ := List.forall_mem_cons.1 fixed
      have notSigma : c ≠ 'Σ' := by
        rintro rfl
        revert here
        decide +kernel
      rw [lowerAfter, if_neg notSigma, here, ih later, List.singleton_append]

/-- **What has been lowercased stays as it is**, wherever it is put. -/
theorem lowerAfter_lowerAfter (before' : List Char) :
    lowerAfter before' (lowerAfter before cs) = lowerAfter before cs :=
  lowerAfter_eq_self fun _ mem => lowerChar_of_mem_lowerAfter mem

end MediaSniff.Text
