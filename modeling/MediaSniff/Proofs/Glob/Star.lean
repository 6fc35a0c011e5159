/-
# MediaSniff.Proofs.Glob.Star — where a pattern has its star

A pattern without brackets may have one star, at one of its ends (`StarAtOneEnd`). Its star
is looked for among the bytes of its text, and if the rule ignores case, of the text that is
lowercased. Nothing is different in the pattern as it was written: both its bytes and its
lowercase form have something for each of its characters, a star for a star and no star for
anything else (`Respells`), and so they have their stars where it has them
(`Respells.starAtOneEnd_iff`).
-/
import MediaSniff.Glob.Compile
import MediaSniff.Proofs.Text.Lowercase
import MediaSniff.Proofs.Text.Marks
import MediaSniff.Proofs.Text.Utf8

set_option autoImplicit false

namespace MediaSniff.Glob

variable {α β : Type} {a : α} {b : β} {cs : List α} {ds : List β}

/-- A text that is there and has no star, or a single one at one of its ends and more. -/
def StarAtOneEnd (star : α) (text : List α) : Prop :=
  (text ≠ [] ∧ star ∉ text) ∨
    ∃ body, body ≠ [] ∧ star ∉ body ∧ (text = star :: body ∨ text = body ++ [star])

theorem starAtOneEnd_cons_iff : StarAtOneEnd a (a :: cs) ↔ cs ≠ [] ∧ a ∉ cs := by
  constructor
  · rintro (⟨-, starless⟩ | ⟨body, more, starless, first | last⟩)
    · exact absurd List.mem_cons_self starless
    · cases first
      exact ⟨more, starless⟩
    · cases body with
      | nil => exact absurd rfl more
      | cons b body =>
          cases last
          exact absurd List.mem_cons_self starless
  · rintro ⟨more, starless⟩
    exact Or.inr ⟨cs, more, starless, Or.inl rfl⟩

theorem starAtOneEnd_concat_iff : StarAtOneEnd a (cs ++ [a]) ↔ cs ≠ [] ∧ a ∉ cs := by
  constructor
  · rintro (⟨-, starless⟩ | ⟨body, more, starless, first | last⟩)
    · exact absurd (List.mem_append_right _ List.mem_cons_self) starless
    · cases cs with
      | nil =>
          cases first
          exact absurd rfl more
      | cons c cs =>
          cases first
          exact absurd (List.mem_append_right _ List.mem_cons_self) starless
    · obtain rfl := List.append_cancel_right last
      exact ⟨more, starless⟩
  · rintro ⟨more, starless⟩
    exact Or.inr ⟨cs, more, starless, Or.inr rfl⟩

/-- A text and another that has something for each member of it, in the same order: the one
star for the other and, for anything else, something without a star. -/
inductive Respells (a : α) (b : β) : List α → List β → Prop
  | nil : Respells a b [] []
  | star {cs : List α} {ds : List β} (rest : Respells a b cs ds) : Respells a b (a :: cs) (b :: ds)
  | other {c : α} {cs : List α} {part ds : List β} (differs : c ≠ a) (nonempty : part ≠ [])
      (starless : b ∉ part) (rest : Respells a b cs ds) : Respells a b (c :: cs) (part ++ ds)

namespace Respells

theorem mem_iff (respelled : Respells a b cs ds) : b ∈ ds ↔ a ∈ cs := by
  induction respelled with
  | nil => exact iff_of_false List.not_mem_nil List.not_mem_nil
  | star rest ih => exact iff_of_true List.mem_cons_self List.mem_cons_self
  | other differs nonempty starless rest ih =>
      rw [List.mem_append, List.mem_cons, ih]
      simp only [starless, Ne.symm differs, false_or]

theorem eq_nil_iff (respelled : Respells a b cs ds) : ds = [] ↔ cs = [] := by
  cases respelled with
  | nil => exact iff_of_true rfl rfl
  | star rest => exact iff_of_false (List.cons_ne_nil _ _) (List.cons_ne_nil _ _)
  | other differs nonempty starless rest =>
      exact iff_of_false (List.append_ne_nil_of_left_ne_nil nonempty _) (List.cons_ne_nil _ _)

theorem exists_of_append {cs' : List α} (respelled : Respells a b (cs ++ cs') ds) :
    ∃ front back, ds = front ++ back ∧ Respells a b cs front ∧ Respells a b cs' back := by
  induction cs generalizing ds with
  | nil => exact ⟨[], ds, rfl, .nil, respelled⟩
  | cons c cs ih =>
      cases respelled with
      | star rest =>
          obtain ⟨front, back, rfl, first, second⟩ := ih rest
          exact ⟨b :: front, back, rfl, .star first, second⟩
      | @other _ _ part _ differs nonempty starless rest =>
          obtain ⟨front, back, rfl, first, second⟩ := ih rest
          exact ⟨part ++ front, back, (List.append_assoc part front back).symm,
            .other differs nonempty starless first, second⟩

/-! ### Stars at the ends -/

theorem exists_of_cons (respelled : Respells a b (a :: cs) ds) :
    ∃ ds', ds = b :: ds' ∧ Respells a b cs ds' := by
  cases respelled with
  | star rest => exact ⟨_, rfl, rest⟩
  | other differs nonempty starless rest => exact absurd rfl differs

theorem exists_of_concat (respelled : Respells a b (cs ++ [a]) ds) :
    ∃ ds', ds = ds' ++ [b] ∧ Respells a b cs ds' := by
  obtain ⟨front, back, rfl, rest, last⟩ := exists_of_append respelled
  obtain ⟨none, rfl, blank⟩ := last.exists_of_cons
  cases blank
  exact ⟨front, rfl, rest⟩

theorem exists_of_star_cons (respelled : Respells a b cs (b :: ds)) :
    ∃ cs', cs = a :: cs' ∧ Respells a b cs' ds := by
  generalize starred : b :: ds = whole at respelled
  cases respelled with
  | nil => cases starred
  | star rest =>
      cases starred
      exact ⟨_, rfl, rest⟩
  | @other _ _ part _ differs nonempty starless rest =>
      cases part with
      | nil => exact absurd rfl nonempty
      | cons d part =>
          cases starred
          exact absurd List.mem_cons_self starless

theorem exists_of_concat_star (respelled : Respells a b cs (ds ++ [b])) :
    ∃ cs', cs = cs' ++ [a] ∧ Respells a b cs' ds := by
  rcases List.eq_nil_or_concat cs with rfl | ⟨cs, c, rfl⟩
  · exact absurd (respelled.eq_nil_iff.2 rfl) (by simp)
  · rw [List.concat_eq_append] at respelled ⊢
    obtain ⟨front, back, whole, rest, last⟩ := exists_of_append respelled
    cases last with
    | star none =>
        cases none
        obtain rfl := List.append_cancel_right whole
        exact ⟨cs, rfl, rest⟩
    | @other _ _ part _ differs nonempty starless none =>
        cases none
        rw [List.append_nil] at whole
        have ends : part.getLast? = some b := by
          rw [← List.getLast?_append_of_ne_nil front nonempty, ← whole, List.getLast?_concat]
        exact absurd (List.mem_of_getLast? ends) starless

/-- **Stars stay where they are.** -/
theorem starAtOneEnd_iff (respelled : Respells a b cs ds) :
    StarAtOneEnd b ds ↔ StarAtOneEnd a cs := by
  have starless {cs' : List α} {ds' : List β} (respelled : Respells a b cs' ds') :
      (ds' ≠ [] ∧ b ∉ ds') ↔ (cs' ≠ [] ∧ a ∉ cs') :=
    and_congr (not_congr respelled.eq_nil_iff) (not_congr respelled.mem_iff)
  refine or_congr (starless respelled) ⟨?_, ?_⟩
  · rintro ⟨ds', more, none, rfl | rfl⟩
    · obtain ⟨cs', rfl, rest⟩ := respelled.exists_of_star_cons
      obtain ⟨more', none'⟩ := (starless rest).1 ⟨more, none⟩
      exact ⟨cs', more', none', Or.inl rfl⟩
    · obtain ⟨cs', rfl, rest⟩ := respelled.exists_of_concat_star
      obtain ⟨more', none'⟩ := (starless rest).1 ⟨more, none⟩
      exact ⟨cs', more', none', Or.inr rfl⟩
  · rintro ⟨cs', more, none, rfl | rfl⟩
    · obtain ⟨ds', rfl, rest⟩ := respelled.exists_of_cons
      obtain ⟨more', none'⟩ := (starless rest).2 ⟨more, none⟩
      exact ⟨ds', more', none', Or.inl rfl⟩
    · obtain ⟨ds', rfl, rest⟩ := respelled.exists_of_concat
      obtain ⟨more', none'⟩ := (starless rest).2 ⟨more, none⟩
      exact ⟨ds', more', none', Or.inr rfl⟩

end Respells

/-! ## Bytes and lowercase forms -/

theorem respells_encode (cs : List Char) : Respells '*' star cs (Text.encode cs) := by
  induction cs with
  | nil => exact .nil
  | cons c cs ih =>
      by_cases isStar : c = '*'
      · rw [isStar]
        exact .star ih
      · refine .other isStar String.utf8EncodeChar_ne_nil (fun mem => ?_) ih
        have single : star ∈ Text.encode [c] := by simpa using mem
        have same := (Text.ascii_mem_encode (c := '*') rfl (by decide)).1 single
        exact isStar (List.mem_singleton.1 same).symm

theorem respells_lowerAfter (before cs : List Char) :
    Respells '*' '*' cs (Text.lowerAfter before cs) := by
  induction cs generalizing before with
  | nil => exact .nil
  | cons c cs ih =>
      by_cases isStar : c = '*'
      · rw [isStar]
        exact .star (ih ('*' :: before))
      · rw [Text.lowerAfter]
        refine .other isStar ?_ (fun mem => ?_) (ih (c :: before))
        · split
          · exact List.cons_ne_nil _ _
          · exact Text.lowerChar_ne_nil c
        · split at mem
          · rw [List.mem_singleton] at mem
            split at mem <;> exact absurd mem (by decide)
          · exact isStar ((Text.mark_mem_lowerChar (by decide)).1 mem).symm

/-- **The star of a compiled pattern** is where the star of the written one is. -/
theorem starAtOneEnd_utf8_iff (pattern : String) (caseSensitive : Bool) :
    StarAtOneEnd star (Text.utf8 (if caseSensitive then pattern else Text.lowercase pattern)) ↔
      StarAtOneEnd '*' pattern.toList := by
  rw [Text.utf8_eq_encode, (respells_encode _).starAtOneEnd_iff]
  cases caseSensitive with
  | true => exact Iff.rfl
  | false =>
      rw [if_neg (by decide), Text.lowercase, String.toList_ofList,
        (respells_lowerAfter _ _).starAtOneEnd_iff]

end MediaSniff.Glob
