/-
# MediaSniff.Proofs.Text.Runs — runs of characters

Readers take what they read run by run: all characters of one kind up to the first of another
(`takeWhile_dropWhile_append`), or all up to a mark (`takeWhile_dropWhile_mark`). Of which kind
the characters of ASCII are is checked for all of them at once (`forall_ascii`).
-/

set_option autoImplicit false

namespace MediaSniff.Text

/-- What a run of characters of one kind is followed by is found behind the run. -/
theorem takeWhile_dropWhile_append {p : Char → Bool} {run : List Char}
    (all : ∀ c ∈ run, p c = true) (rest : List Char) (stop : ∀ c ∈ rest.head?, p c = false) :
    (run ++ rest).takeWhile p = run ∧ (run ++ rest).dropWhile p = rest := by
  rw [List.takeWhile_append_of_pos all, List.dropWhile_append_of_pos all]
  cases rest with
  | nil => simp
  | cons c rest =>
      have here : p c = false := stop c rfl
      simp [here]

/-- Text without a mark is a run up to the mark, or up to the end. -/
theorem takeWhile_dropWhile_mark {mark : Char} {run : List Char} (absent : mark ∉ run)
    (rest : List Char) (stop : ∀ c ∈ rest.head?, c = mark) :
    (run ++ rest).takeWhile (· ≠ mark) = run ∧ (run ++ rest).dropWhile (· ≠ mark) = rest := by
  refine takeWhile_dropWhile_append (fun c mem => ?_) rest fun c head => ?_
  · simpa using fun same : c = mark => absent (same ▸ mem)
  · simpa using stop c head

/-- What holds of all characters of ASCII holds of each. -/
theorem forall_ascii {p : Char → Bool}
    (checked : ((List.range 128).all fun code => p (Char.ofNat code)) = true) {c : Char}
    (ascii : c.toNat < 128) : p c = true := by
  have here := List.all_eq_true.1 checked c.toNat (List.mem_range.2 ascii)
  rwa [Char.ofNat_toNat] at here

theorem toNat_lt_of_isAlphanum {c : Char} (alphanum : c.isAlphanum = true) : c.toNat < 128 := by
  have ranges : ((decide (65 ≤ c.val ∧ c.val ≤ 90) || 97 ≤ c.val && c.val ≤ 122) ||
      48 ≤ c.val && c.val ≤ 57) = true := alphanum
  simp only [Bool.or_eq_true, Bool.and_eq_true, decide_eq_true_eq,
    UInt32.le_iff_toNat_le] at ranges
  have value : c.toNat = c.val.toNat := rfl
  rcases ranges with ((⟨-, le⟩ | ⟨-, le⟩) | ⟨-, le⟩) <;> simp at le <;> omega

end MediaSniff.Text
