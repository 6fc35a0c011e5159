/-
# MediaSniff.Proofs.Text.Numeral — the numbers that numerals stand for

A digit is a character of `0123456789abcdef`, in either case, and its value is its place there
(`IsDigit`). A numeral is one or more digits, and its number is the one that `Nat.ofDigits`
makes of their values, the last digit counting least (`IsNumeral`).

Numerals are read from the front, as digits that follow a number already read (`GoesOn`), and
reading stops as soon as there is no room for the number. Nothing is lost by that, since more
digits never make a number smaller (`natural?_eq_some_iff`). Where a sign may stand in front, it
cannot be taken for a digit (`signedNatural?_eq_some_iff`).
-/
import MediaSniff.Text.Numeral
import MediaSniff.Proofs.Text.Runs
import Mathlib.Data.List.Forall2
import Mathlib.Data.Nat.Digits.Lemmas
import Mathlib.Tactic.IntervalCases

set_option autoImplicit false

namespace MediaSniff.Text

/-! ## Digits -/

/-- A character is the digit of a value. -/
def IsDigit (base : Nat) (c : Char) (d : Nat) : Prop :=
  d < base ∧ ("0123456789abcdef".toList[d]? = some c ∨ "0123456789ABCDEF".toList[d]? = some c)

/-- A smaller base has the digits with smaller values. -/
theorem digit?_eq_filter {base : Nat} (small : base ≤ 16) (c : Char) :
    digit? base c = (digit? 16 c).filter (· < base) := by
  simp only [digit?, Option.filter_filter]
  congr 1
  funext d
  rw [← Bool.decide_and]
  congr 1
  rw [eq_iff_iff]
  omega

theorem toNat_lt_of_digit? {base d : Nat} {c : Char} (digit : digit? base c = some d) :
    c.toNat < 128 := by
  simp only [digit?, Bool.and_eq_true, decide_eq_true_eq, Char.le_def, UInt32.le_iff_toNat_le]
    at digit
  have value : c.toNat = c.val.toNat := rfl
  split at digit
  · simp at *
    omega
  · split at digit
    · simp at *
      omega
    · split at digit
      · simp at *
        omega
      · cases digit

theorem digit?_sixteen {c : Char} {d : Nat} : digit? 16 c = some d ↔ IsDigit 16 c d := by
  constructor
  · intro digit
    have checked := forall_ascii (p := fun c => (digit? 16 c).all fun d => d < 16 &&
      ("0123456789abcdef".toList[d]? == some c || "0123456789ABCDEF".toList[d]? == some c))
      (by decide) (toNat_lt_of_digit? digit)
    simpa [IsDigit, digit] using checked
  · rintro ⟨small, here⟩
    interval_cases d <;> rcases here with here | here <;> cases here <;> decide

/-- **A character is read as the digit that it is.** -/
theorem digit?_eq_some_iff {base d : Nat} {c : Char} (small : base ≤ 16) :
    digit? base c = some d ↔ IsDigit base c d := by
  rw [digit?_eq_filter small, Option.filter_eq_some_iff, digit?_sixteen, IsDigit, IsDigit,
    decide_eq_true_eq]
  constructor
  · rintro ⟨⟨-, here⟩, less⟩
    exact ⟨less, here⟩
  · rintro ⟨less, here⟩
    exact ⟨⟨less.trans_le small, here⟩, less⟩

theorem IsDigit.value_unique {base d d' : Nat} {c : Char} (small : base ≤ 16)
    (digit : IsDigit base c d) (digit' : IsDigit base c d') : d = d' := by
  rw [← digit?_eq_some_iff small] at digit digit'
  exact Option.some.inj (digit.symm.trans digit')

/-! ## Numerals -/

/-- One or more digits of a base stand for a number. -/
def IsNumeral (base : Nat) (cs : List Char) (n : Nat) : Prop :=
  cs ≠ [] ∧ ∃ ds, List.Forall₂ (IsDigit base) cs ds ∧ Nat.ofDigits base ds.reverse = n

/-- Digits that follow a number already read make up a number with it. -/
def GoesOn (base read : Nat) (cs : List Char) (n : Nat) : Prop :=
  ∃ ds, List.Forall₂ (IsDigit base) cs ds ∧ ds.foldl (fun n d => n * base + d) read = n

section GoesOn

variable {base read n : Nat} {c : Char} {cs : List Char}

theorem goesOn_nil : GoesOn base read [] n ↔ n = read := by
  simp only [GoesOn, List.forall₂_nil_left_iff, exists_eq_left, List.foldl_nil, eq_comm]

theorem goesOn_cons :
    GoesOn base read (c :: cs) n ↔ ∃ d, IsDigit base c d ∧ GoesOn base (read * base + d) cs n := by
  constructor
  · rintro ⟨ds, digits, value⟩
    cases digits with
    | cons digit digits => exact ⟨_, digit, _, digits, value⟩
  · rintro ⟨d, digit, ds, digits, value⟩
    exact ⟨d :: ds, .cons digit digits, value⟩

/-- More digits make no number smaller. -/
theorem GoesOn.le (positive : 0 < base) (more : GoesOn base read cs n) : read ≤ n := by
  induction cs generalizing read with
  | nil => exact (goesOn_nil.1 more).ge
  | cons c cs ih =>
      obtain ⟨d, -, more⟩ := goesOn_cons.1 more
      have least : read ≤ read * base := Nat.le_mul_of_pos_right read positive
      exact (least.trans (Nat.le_add_right _ d)).trans (ih more)

/-- Digits make up one number. -/
theorem GoesOn.value_unique {n' : Nat} (small : base ≤ 16) (more : GoesOn base read cs n)
    (more' : GoesOn base read cs n') : n = n' := by
  induction cs generalizing read with
  | nil => rw [goesOn_nil.1 more, goesOn_nil.1 more']
  | cons c cs ih =>
      obtain ⟨d, digit, more⟩ := goesOn_cons.1 more
      obtain ⟨d', digit', more'⟩ := goesOn_cons.1 more'
      obtain rfl := digit.value_unique small digit'
      exact ih more more'

theorem isNumeral_iff : IsNumeral base cs n ↔ cs ≠ [] ∧ GoesOn base 0 cs n := by
  simp only [IsNumeral, GoesOn, Nat.ofDigits_eq_foldr, List.foldr_reverse, Nat.cast_id]
  simp only [Nat.mul_comm, Nat.add_comm]

/-- A numeral is a digit that other digits follow. -/
theorem isNumeral_cons :
    IsNumeral base (c :: cs) n ↔ ∃ d, IsDigit base c d ∧ GoesOn base d cs n := by
  simp [isNumeral_iff, goesOn_cons]

/-- A numeral of so many digits has a number below that power of its base. -/
theorem IsNumeral.lt_pow (numeral : IsNumeral base cs n) (large : 1 < base) :
    n < base ^ cs.length := by
  obtain ⟨-, ds, digits, rfl⟩ := numeral
  rw [digits.length_eq, ← List.length_reverse]
  apply Nat.ofDigits_lt_base_pow_length large
  intro d mem
  obtain ⟨j, inside, rfl⟩ := List.mem_iff_getElem.1 (List.mem_reverse.1 mem)
  exact (digits.get (digits.length_eq ▸ inside) inside).1

/-- Reading further digits gives the number that they make up, if there is room for it. -/
theorem digitsAfter_eq_some_iff {bound : Nat} (positive : 0 < base) (small : base ≤ 16)
    (room : read < bound) :
    digitsAfter base bound read cs = some n ↔ GoesOn base read cs n ∧ n < bound := by
  induction cs generalizing read with
  | nil =>
      rw [digitsAfter, goesOn_nil, Option.some.injEq]
      constructor
      · rintro rfl
        exact ⟨rfl, room⟩
      · rintro ⟨rfl, -⟩
        rfl
  | cons c cs ih =>
      rw [digitsAfter, goesOn_cons]
      simp only [← digit?_eq_some_iff small]
      cases digit? base c with
      | none => simp
      | some d =>
          by_cases fits : read * base + d < bound
          · simp [fits, ih fits]
          · simp only [fits, if_false, Option.some.injEq, exists_eq_left', reduceCtorEq, false_iff]
            rintro ⟨more, less⟩
            exact fits ((more.le positive).trans_lt less)

/-- **A numeral is read as its number**, if that is below the bound. -/
theorem natural?_eq_some_iff {bound : Nat} (positive : 0 < base) (small : base ≤ 16)
    (room : 0 < bound) :
    natural? base bound cs = some n ↔ IsNumeral base cs n ∧ n < bound := by
  rw [natural?, isNumeral_iff, and_assoc, ← digitsAfter_eq_some_iff positive small room]
  cases cs <;> simp

/-- Only digits stand in a numeral. -/
theorem IsNumeral.not_mem (numeral : IsNumeral base cs n) (small : base ≤ 16)
    (other : digit? 16 c = none) : c ∉ cs := by
  intro mem
  obtain ⟨-, ds, digits, -⟩ := numeral
  obtain ⟨j, inside, rfl⟩ := List.mem_iff_getElem.1 mem
  have digit := digits.get inside (digits.length_eq ▸ inside)
  simp only [List.get_eq_getElem] at digit
  rw [← digit?_eq_some_iff small, digit?_eq_filter small, other] at digit
  cases digit

/-! ## Signs -/

/-- A numeral, with or without a plus sign in front. -/
def IsSignedNumeral (base : Nat) (cs : List Char) (n : Nat) : Prop :=
  IsNumeral base cs n ∨ ∃ digits, cs = '+' :: digits ∧ IsNumeral base digits n

theorem IsSignedNumeral.not_mem (numeral : IsSignedNumeral base cs n) (small : base ≤ 16)
    (other : digit? 16 c = none) (unsigned : c ≠ '+') : c ∉ cs := by
  rcases numeral with numeral | ⟨digits, rfl, numeral⟩
  · exact numeral.not_mem small other
  · exact List.not_mem_cons_of_ne_of_not_mem unsigned (numeral.not_mem small other)

/-- A sign is passed over, and no digit is taken for one. -/
theorem signedNatural?_eq_some_iff {bound : Nat} (positive : 0 < base) (small : base ≤ 16)
    (room : 0 < bound) :
    signedNatural? base bound cs = some n ↔ IsSignedNumeral base cs n ∧ n < bound := by
  unfold signedNatural? IsSignedNumeral
  split
  · rename_i digits
    have noDigit : ¬ IsNumeral base ('+' :: digits) n := fun numeral =>
      numeral.not_mem small (by decide) List.mem_cons_self
    rw [natural?_eq_some_iff positive small room]
    simp [noDigit]
  · rename_i unsigned
    have noSign : ¬ ∃ digits, cs = '+' :: digits ∧ IsNumeral base digits n := by
      rintro ⟨digits, signed, -⟩
      exact unsigned digits signed
    rw [natural?_eq_some_iff positive small room]
    simp only [noSign, or_false]

end GoesOn

end MediaSniff.Text
