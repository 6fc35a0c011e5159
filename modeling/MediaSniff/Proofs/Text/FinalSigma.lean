/-
# MediaSniff.Proofs.Text.FinalSigma — lowercasing a part of a text

A capital sigma is the one character whose lowercase form hangs on what stands around it, so
a text that is lowercased as a part of a longer one need not come out as it does alone
(`lowerWithin`). Of what stands before and after it, the part sees only whether the nearest
character that counts is cased (`lowerWithin_congr`). What stands before it tells only on a
sigma that it opens with and that could end a word (`lowerAfter_eq_iff`), what stands after it
only on a sigma that it closes with and that a cased character of its own stands before
(`lowerWithin_nil_eq_iff`). A character that counts and is not cased hides each side from the
other (`lowerAfter_append_cons`).

Both forms of the small sigma have two bytes, so the surroundings never change how many bytes
a part has (`length_encode_lowerWithin`), and a lowercased name begins, or ends, with a text
exactly if the part that is there comes out as that text (`encode_prefix_iff`,
`encode_suffix_iff`).
-/
import MediaSniff.Proofs.Text.Marks
import MediaSniff.Proofs.Text.Utf8

set_option autoImplicit false

namespace MediaSniff.Text

variable {before before' after after' cs ds : List Char}

/-- Lowercase the text that stands behind `before`, nearest first, and in front of `after`. -/
def lowerWithin (before after : List Char) : List Char → List Char
  | [] => []
  | c :: rest =>
      let lowered :=
        if c = 'Σ' then [if endsWord before (rest ++ after) then 'ς' else 'σ'] else lowerChar c
      lowered ++ lowerWithin (c :: before) after rest

theorem lowerWithin_nil_after : lowerWithin before [] cs = lowerAfter before cs := by
  induction cs generalizing before with
  | nil => rfl
  | cons c rest ih => simp only [lowerWithin, lowerAfter, List.append_nil, ih]

theorem lowerWithin_append :
    lowerWithin before after (cs ++ ds) =
      lowerWithin before (ds ++ after) cs ++ lowerWithin (cs.reverse ++ before) after ds := by
  induction cs generalizing before with
  | nil => rfl
  | cons c rest ih =>
      simp only [List.cons_append, lowerWithin, ih, List.append_assoc, List.reverse_cons,
        List.nil_append]

theorem lowerWithin_singleton (c : Char) :
    lowerWithin before after [c] =
      if c = 'Σ' then [if endsWord before after then 'ς' else 'σ'] else lowerChar c := by
  rw [lowerWithin, lowerWithin, List.append_nil, List.nil_append]

/-- **A text is lowercased part by part**, each part among the others. -/
theorem lowerAfter_append :
    lowerAfter before (cs ++ ds) =
      lowerWithin before ds cs ++ lowerAfter (cs.reverse ++ before) ds := by
  rw [← lowerWithin_nil_after, lowerWithin_append, List.append_nil, lowerWithin_nil_after]

theorem mark_mem_lowerWithin {c : Char} (mark : isMark c = true) :
    c ∈ lowerWithin before after cs ↔ c ∈ cs := by
  induction cs generalizing before with
  | nil => exact Iff.rfl
  | cons d rest ih => rw [lowerWithin, List.mem_append, mark_mem_lowered mark, ih, List.mem_cons]

/-! ## What counts of the surroundings -/

theorem startsCased_cons_of_ignorable {c : Char} (ignorable : isCaseIgnorable c = true) :
    startsCased (c :: cs) = startsCased cs := by
  rw [startsCased, List.dropWhile_cons_of_pos ignorable, startsCased]

theorem startsCased_cons_of_not_ignorable {c : Char} (counts : isCaseIgnorable c ≠ true) :
    startsCased (c :: cs) = isCased c := by
  rw [startsCased, List.dropWhile_cons_of_neg counts]

/-- A character that counts hides what stands behind it. -/
theorem startsCased_cons_eq {c : Char} (counts : isCaseIgnorable c ≠ true) :
    startsCased (c :: cs) = startsCased (c :: ds) := by
  rw [startsCased_cons_of_not_ignorable counts, startsCased_cons_of_not_ignorable counts]

/-- A character in between hides a difference or hands it on. -/
theorem startsCased_cons_congr (c : Char) (same : startsCased cs = startsCased ds) :
    startsCased (c :: cs) = startsCased (c :: ds) := by
  by_cases ignorable : isCaseIgnorable c = true
  · rw [startsCased_cons_of_ignorable ignorable, startsCased_cons_of_ignorable ignorable, same]
  · exact startsCased_cons_eq ignorable

theorem startsCased_append_congr (cs : List Char) (same : startsCased after = startsCased after') :
    startsCased (cs ++ after) = startsCased (cs ++ after') := by
  induction cs with
  | nil => exact same
  | cons c cs ih => exact startsCased_cons_congr c ih

/-- A part sees no more of its surroundings. -/
theorem lowerWithin_congr (left : startsCased before = startsCased before')
    (right : startsCased after = startsCased after') :
    lowerWithin before after cs = lowerWithin before' after' cs := by
  induction cs generalizing before before' with
  | nil => rfl
  | cons c rest ih =>
      rw [lowerWithin, lowerWithin, endsWord, endsWord, left, startsCased_append_congr rest right,
        ih (startsCased_cons_congr c left)]

/-! ## A sigma at the beginning -/

/-- Whether the first character that is not case-ignorable is a capital sigma that ends a word
if something cased stands before it. -/
def opensWithSigma (cs : List Char) : Bool :=
  match cs.dropWhile isCaseIgnorable with
  | [] => false
  | c :: rest => c = 'Σ' && !startsCased rest

theorem sigma_counts : isCaseIgnorable 'Σ' ≠ true := by decide +kernel

/-- **What stands before a text** makes a difference only to a sigma that the text opens
with. -/
theorem lowerAfter_eq_iff :
    lowerAfter before cs = lowerAfter before' cs ↔
      startsCased before = startsCased before' ∨ opensWithSigma cs = false := by
  induction cs generalizing before before' with
  | nil => exact iff_of_true rfl (Or.inr rfl)
  | cons c rest ih =>
      by_cases ignorable : isCaseIgnorable c = true
      · have notSigma : c ≠ 'Σ' := fun same => sigma_counts (same ▸ ignorable)
        have opens : opensWithSigma (c :: rest) = opensWithSigma rest := by
          rw [opensWithSigma, List.dropWhile_cons_of_pos ignorable, opensWithSigma]
        rw [lowerAfter, lowerAfter, if_neg notSigma, if_neg notSigma, List.append_cancel_left_eq,
          ih, startsCased_cons_of_ignorable ignorable, startsCased_cons_of_ignorable ignorable,
          opens]
      · have opens : opensWithSigma (c :: rest) = (c = 'Σ' && !startsCased rest) := by
          rw [opensWithSigma, List.dropWhile_cons_of_neg ignorable]
        -- The rest does not see past the character.
        rw [lowerAfter, lowerAfter, ih.2 (Or.inl (startsCased_cons_eq ignorable)),
          List.append_cancel_right_eq, opens]
        by_cases sigma : c = 'Σ'
        · rw [if_pos sigma, if_pos sigma, endsWord, endsWord]
          cases startsCased before <;> cases startsCased before' <;> cases startsCased rest <;>
            simp [sigma]
        · rw [if_neg sigma, if_neg sigma]
          exact iff_of_true rfl (Or.inr (by simp [sigma]))

/-! ## A sigma at the end -/

/-- Whether the last character that is not case-ignorable is a capital sigma that ends a word
if nothing cased stands after it. -/
def closesWithSigma (cs : List Char) : Bool :=
  match cs.reverse.dropWhile isCaseIgnorable with
  | [] => false
  | c :: rest => c = 'Σ' && startsCased rest

/-- **What stands after a text** makes a difference only to a sigma that the text closes
with. -/
theorem lowerWithin_nil_eq_iff :
    lowerWithin [] after cs = lowerWithin [] after' cs ↔
      startsCased after = startsCased after' ∨ closesWithSigma cs = false := by
  induction cs using List.reverseRecOn generalizing after after' with
  | nil => exact iff_of_true rfl (Or.inr rfl)
  | append_singleton front c ih =>
      rw [lowerWithin_append, lowerWithin_append, lowerWithin_singleton, lowerWithin_singleton,
        List.append_nil, List.singleton_append, List.singleton_append]
      by_cases ignorable : isCaseIgnorable c = true
      · have notSigma : c ≠ 'Σ' := fun same => sigma_counts (same ▸ ignorable)
        have closes : closesWithSigma (front ++ [c]) = closesWithSigma front := by
          rw [closesWithSigma, List.reverse_append, List.reverse_singleton, List.singleton_append,
            List.dropWhile_cons_of_pos ignorable, closesWithSigma]
        rw [if_neg notSigma, if_neg notSigma, List.append_cancel_right_eq, ih,
          startsCased_cons_of_ignorable ignorable, startsCased_cons_of_ignorable ignorable, closes]
      · have closes : closesWithSigma (front ++ [c]) = (c = 'Σ' && startsCased front.reverse) := by
          rw [closesWithSigma, List.reverse_append, List.reverse_singleton, List.singleton_append,
            List.dropWhile_cons_of_neg ignorable]
        rw [ih.2 (Or.inl (startsCased_cons_eq ignorable)), List.append_cancel_left_eq, closes]
        by_cases sigma : c = 'Σ'
        · rw [if_pos sigma, if_pos sigma, endsWord, endsWord]
          cases startsCased after <;> cases startsCased after' <;>
            cases startsCased front.reverse <;> simp [sigma]
        · rw [if_neg sigma, if_neg sigma]
          exact iff_of_true rfl (Or.inr (by simp [sigma]))

/-! ## Parts that do not see each other -/

/-- **A character that counts and is not cased parts a text.** Neither side sees past it, so
each is lowercased as it is alone. -/
theorem lowerAfter_append_cons {c : Char} (counts : isCaseIgnorable c ≠ true)
    (caseless : isCased c = false) :
    lowerAfter before (cs ++ c :: ds) =
      lowerAfter before cs ++ (lowerChar c ++ lowerAfter [] ds) := by
  have notSigma : c ≠ 'Σ' := by
    rintro rfl
    exact absurd caseless (by decide +kernel)
  have hidden : ∀ beyond, startsCased (c :: beyond) = startsCased [] := fun beyond =>
    (startsCased_cons_of_not_ignorable counts).trans caseless
  have front : lowerWithin before (c :: ds) cs = lowerAfter before cs := by
    rw [← lowerWithin_nil_after]
    exact lowerWithin_congr rfl (hidden ds)
  have back : lowerAfter (c :: (cs.reverse ++ before)) ds = lowerAfter [] ds :=
    lowerAfter_eq_iff.2 (Or.inl (hidden _))
  rw [lowerAfter_append, lowerAfter, if_neg notSigma, front, back]

/-! ## Bytes -/

/-- The surroundings of a part do not change how many bytes it has. -/
theorem length_encode_lowerWithin :
    (encode (lowerWithin before after cs)).length =
      (encode (lowerWithin before' after' cs)).length := by
  induction cs generalizing before before' with
  | nil => rfl
  | cons c rest ih =>
      rw [lowerWithin, lowerWithin, encode_append, encode_append, List.length_append,
        List.length_append, ih]
      congr 1
      split
      · cases endsWord before (rest ++ after) <;> cases endsWord before' (rest ++ after') <;> rfl
      · rfl

/-- A lowercased text begins with what its first part comes out as elsewhere exactly if that
part comes out so here. -/
theorem encode_prefix_iff :
    encode (lowerWithin before after cs) <+: encode (lowerAfter before' (cs ++ ds)) ↔
      lowerWithin before after cs = lowerWithin before' ds cs := by
  rw [lowerAfter_append, encode_append, ← encode_inj]
  constructor
  · intro begins
    have long : (encode (lowerWithin before after cs)).length =
        (encode (lowerWithin before' ds cs)).length := length_encode_lowerWithin
    have fits := List.prefix_of_prefix_length_le begins (List.prefix_append _ _) long.le
    exact fits.eq_of_length long
  · intro same
    rw [same]
    exact List.prefix_append _ _

theorem encode_suffix_iff :
    encode (lowerAfter before ds) <:+ encode (lowerAfter before' (cs ++ ds)) ↔
      lowerAfter before ds = lowerAfter (cs.reverse ++ before') ds := by
  rw [lowerAfter_append, encode_append, ← encode_inj]
  constructor
  · intro ends
    have long : (encode (lowerAfter before ds)).length =
        (encode (lowerAfter (cs.reverse ++ before') ds)).length := by
      rw [← lowerWithin_nil_after, ← lowerWithin_nil_after]
      exact length_encode_lowerWithin
    have fits := List.suffix_of_suffix_length_le ends (List.suffix_append _ _) long.le
    exact fits.eq_of_length long
  · intro same
    rw [same]
    exact List.suffix_append _ _

end MediaSniff.Text
