/-
# MediaSniff.Proofs.Text.Lowercase — lowercasing leaves something of everything

A character lowercases to one or two characters, never to none. So only the empty text
lowercases to the empty text (`lowercase_eq_empty_iff`), and a rule that ignores case asks
for something if it does as it is written.
-/
import MediaSniff.Text.Lowercase
import MediaSniff.Text.Utf8

set_option autoImplicit false

namespace MediaSniff.Text

theorem utf8_eq_nil_iff {s : String} : utf8 s = [] ↔ s = "" := by
  rw [utf8, Array.toList_eq_nil_iff, ← String.toByteArray_eq_empty_iff]
  constructor
  · intro blank
    exact ByteArray.ext blank
  · intro empty
    rw [empty]
    rfl

theorem lowerChar_ne_nil (c : Char) : lowerChar c ≠ [] := by
  unfold lowerChar
  split
  · exact List.cons_ne_nil _ _
  · split
    · exact List.cons_ne_nil _ _
    · split
      · exact List.cons_ne_nil _ _
      · exact List.cons_ne_nil _ _

theorem lowerAfter_eq_nil_iff {before cs : List Char} : lowerAfter before cs = [] ↔ cs = [] := by
  cases cs with
  | nil => exact Iff.rfl
  | cons c rest =>
      have written : lowerAfter before (c :: rest) ≠ [] := by
        rw [lowerAfter]
        apply List.append_ne_nil_of_left_ne_nil
        split
        · exact List.cons_ne_nil _ _
        · exact lowerChar_ne_nil c
      exact iff_of_false written (List.cons_ne_nil c rest)

/-- Only the empty text lowercases to the empty text. -/
theorem lowercase_eq_empty_iff {s : String} : lowercase s = "" ↔ s = "" := by
  rw [lowercase, String.ofList_eq_empty_iff, lowerAfter_eq_nil_iff, String.toList_eq_nil_iff]

end MediaSniff.Text
