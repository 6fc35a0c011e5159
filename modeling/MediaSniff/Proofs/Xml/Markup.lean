/-
# MediaSniff.Proofs.Xml.Markup — pieces of markup are final

A piece of markup that has been found in a text is found in every longer text as well, and
nothing else before it (`Markup.first?_append`). So the pieces of a text are the first pieces
of each text that it begins (`markups_mono`).

This needs that what tells one kind of piece from another is itself part of the piece. Where
a text ends inside such a mark, as in `<!-` or `<![CDA`, it has no further piece, whichever
kind it is taken for.
-/
import MediaSniff.Xml.Markup
import Mathlib.Data.List.Infix

set_option autoImplicit false

namespace MediaSniff.Xml

/-! ## The pieces of a text -/

theorem markups_of_ne {c : Char} (other : c ≠ '<') (cs : List Char) :
    markups (c :: cs) = markups cs := by
  rw [markups, if_neg other]

theorem markups_of_first?_eq_some {cs rest : List Char} {m : Markup}
    (found : Markup.first? cs = some (m, rest)) : markups ('<' :: cs) = m :: markups rest := by
  rw [markups, if_pos rfl]
  split
  · rename_i cut
    rw [found] at cut
    cases cut
  · rename_i found'
    rw [found] at found'
    cases found'
    rfl

theorem markups_of_first?_eq_none {cs : List Char} (cut : Markup.first? cs = none) :
    markups ('<' :: cs) = [] := by
  rw [markups, if_pos rfl]
  split
  · rfl
  · rename_i found
    rw [cut] at found
    cases found

/-- Text between pieces of markup is passed over. -/
theorem markups_text_append {text : List Char} (plain : '<' ∉ text) (cs : List Char) :
    markups (text ++ cs) = markups cs := by
  induction text with
  | nil => rfl
  | cons c text ih =>
      have other : c ≠ '<' := fun same => plain (same ▸ List.mem_cons_self)
      rw [List.cons_append, markups_of_ne other, ih fun mem => plain (List.mem_cons_of_mem c mem)]

/-! ## Longer texts -/

theorem length_le_of_after? {mark cs rest : List Char} (found : after? mark cs = some rest) :
    mark.length ≤ cs.length := by
  induction cs with
  | nil =>
      rw [after?] at found
      split at found
      · rename_i blank
        simp [List.isEmpty_iff.1 blank]
      · cases found
  | cons c cs ih =>
      rw [after?] at found
      split at found
      · rename_i here
        exact (List.isPrefixOf_iff_prefix.1 here).length_le
      · exact Nat.le_succ_of_le (ih found)

/-- A mark is found where it is found in a longer text: it cannot begin earlier and end only
there. -/
theorem after?_append {mark cs rest : List Char} (found : after? mark cs = some rest)
    (ds : List Char) : after? mark (cs ++ ds) = some (rest ++ ds) := by
  induction cs with
  | nil =>
      rw [after?] at found
      split at found
      · rename_i blank
        cases found
        rw [List.isEmpty_iff.1 blank]
        cases ds <;> simp [after?]
      · cases found
  | cons c cs ih =>
      rw [List.cons_append, after?]
      rw [after?] at found
      split at found
      · rename_i here
        have here := List.isPrefixOf_iff_prefix.1 here
        have there : mark <+: c :: (cs ++ ds) := here.trans (List.prefix_append (c :: cs) ds)
        cases found
        rw [if_pos (List.isPrefixOf_iff_prefix.2 there), ← List.cons_append,
          List.drop_append_of_le_length here.length_le]
      · rename_i notHere
        have notThere : ¬ mark <+: c :: (cs ++ ds) := by
          intro there
          refine notHere (List.isPrefixOf_iff_prefix.2 ?_)
          exact List.prefix_of_prefix_length_le there (List.prefix_append (c :: cs) ds)
            (Nat.le_succ_of_le (length_le_of_after? found))
        rw [if_neg (fun there => notThere (List.isPrefixOf_iff_prefix.1 there)), ih found]

theorem splitTag?_append {quote : Option Char} {cs text rest : List Char}
    (found : splitTag? quote cs = some (text, rest)) (ds : List Char) :
    splitTag? quote (cs ++ ds) = some (text, rest ++ ds) := by
  induction cs generalizing quote text rest with
  | nil => cases found
  | cons c cs ih =>
      cases quote with
      | some q =>
          obtain ⟨r, inside, e⟩ := Option.map_eq_some_iff.1 found
          cases e
          rw [List.cons_append, splitTag?, ih inside, Option.map_some]
      | none =>
          rw [splitTag?] at found
          rw [List.cons_append, splitTag?]
          split at found
          · rename_i close
            cases found
            rw [if_pos close]
          · rename_i notClose
            obtain ⟨r, inside, e⟩ := Option.map_eq_some_iff.1 found
            cases e
            rw [if_neg notClose, ih inside, Option.map_some]

theorem afterBrackets?_append {depth : Nat} {quote : Option Char} {cs rest : List Char}
    (found : afterBrackets? depth quote cs = some rest) (ds : List Char) :
    afterBrackets? depth quote (cs ++ ds) = some (rest ++ ds) := by
  fun_induction afterBrackets? depth quote cs with
  | case1 => cases found
  | case2 depth c cs q ih => exact ih found
  | case3 depth c cs quote ih =>
      rw [List.cons_append, afterBrackets?, if_pos quote, ih found]
  | case4 depth cs quote ih => exact ih found
  | case5 depth cs _ _ ih => exact ih found
  | case6 depth c cs quote opening closing close =>
      cases found
      rw [List.cons_append, afterBrackets?, if_neg quote, if_neg opening, if_neg closing,
        if_pos close]
  | case7 depth c cs quote opening closing close ih =>
      rw [List.cons_append, afterBrackets?, if_neg quote, if_neg opening, if_neg closing,
        if_neg close, ih found]

/-- A directive ends at a `>`. -/
theorem mem_of_afterBrackets? {depth : Nat} {quote : Option Char} {cs rest : List Char}
    (found : afterBrackets? depth quote cs = some rest) : '>' ∈ cs := by
  fun_induction afterBrackets? depth quote cs with
  | case1 => cases found
  | case2 _ c cs q ih => exact List.mem_cons_of_mem c (ih found)
  | case3 _ c cs _ ih => exact List.mem_cons_of_mem c (ih found)
  | case4 _ cs _ ih => exact List.mem_cons_of_mem '[' (ih found)
  | case5 _ cs _ _ ih => exact List.mem_cons_of_mem ']' (ih found)
  | case6 _ c cs _ _ _ close =>
      simp only [Bool.and_eq_true, decide_eq_true_eq] at close
      exact close.1 ▸ List.mem_cons_self
  | case7 _ c cs _ _ _ _ ih => exact List.mem_cons_of_mem c (ih found)

/-- What a section of character data has behind its `<!`. -/
def sectionMark : List Char := ['[', 'C', 'D', 'A', 'T', 'A', '[']

theorem afterDirective?_of_not_section {cs : List Char} (other : ¬ sectionMark <+: cs) :
    afterDirective? cs = afterBrackets? 0 none cs := by
  unfold afterDirective?
  split
  · exact absurd (List.prefix_append sectionMark _) other
  · rfl

theorem afterDirective?_append {cs rest : List Char} (found : afterDirective? cs = some rest)
    (ds : List Char) : afterDirective? (cs ++ ds) = some (rest ++ ds) := by
  by_cases characterData : sectionMark <+: cs
  · obtain ⟨data, rfl⟩ := characterData
    have found : after? [']', ']', '>'] data = some rest := found
    exact after?_append found ds
  · rw [afterDirective?_of_not_section characterData] at found
    -- The directive ends within the text, so the text does not end within the mark of a section.
    have other : ¬ sectionMark <+: cs ++ ds := by
      intro start
      rcases List.prefix_or_prefix_of_prefix start (List.prefix_append cs ds) with inside | cut
      · exact characterData inside
      · exact absurd (cut.subset (mem_of_afterBrackets? found)) (by decide)
    rw [afterDirective?_of_not_section other, afterBrackets?_append found]

theorem Markup.first?_directive {cs : List Char} (other : ¬ ['-', '-'] <+: cs) :
    Markup.first? ('!' :: cs) = (afterDirective? cs).map fun rest => (.directive, rest) := by
  unfold Markup.first?
  split <;> rename_i e
  · cases e
  · cases e
    exact absurd (List.prefix_append ['-', '-'] _) other
  · cases e
    rfl
  · cases e
  · rename_i directive
    exact absurd rfl (directive cs)

theorem Markup.first?_startTag {c : Char} (other : c ≠ '?' ∧ c ≠ '!' ∧ c ≠ '/') (cs : List Char) :
    Markup.first? (c :: cs) =
      (splitTag? none (c :: cs)).map fun r => (.startTag r.1, r.2) := by
  unfold Markup.first?
  split <;> rename_i e
  · cases e
    exact absurd rfl other.1
  · cases e
    exact absurd rfl other.2.1
  · cases e
    exact absurd rfl other.2.1
  · cases e
    exact absurd rfl other.2.2
  · rfl

/-- **A piece of markup is final**: whatever follows, it is the first piece. -/
theorem Markup.first?_append {cs rest : List Char} {m : Markup}
    (found : Markup.first? cs = some (m, rest)) (ds : List Char) :
    Markup.first? (cs ++ ds) = some (m, rest ++ ds) := by
  cases cs with
  | nil => cases found
  | cons c cs =>
      by_cases instruction : c = '?'
      · subst instruction
        obtain ⟨_, ends, e⟩ := Option.map_eq_some_iff.1 found
        cases e
        exact Option.map_eq_some_iff.2 ⟨_, after?_append ends ds, rfl⟩
      by_cases endTag : c = '/'
      · subst endTag
        obtain ⟨_, ends, e⟩ := Option.map_eq_some_iff.1 found
        cases e
        exact Option.map_eq_some_iff.2 ⟨_, after?_append ends ds, rfl⟩
      by_cases declaration : c = '!'
      · subst declaration
        by_cases comment : ['-', '-'] <+: cs
        · obtain ⟨cs, rfl⟩ := comment
          obtain ⟨_, ends, e⟩ := Option.map_eq_some_iff.1 found
          cases e
          exact Option.map_eq_some_iff.2 ⟨_, after?_append ends ds, rfl⟩
        · rw [Markup.first?_directive comment] at found
          obtain ⟨_, ends, e⟩ := Option.map_eq_some_iff.1 found
          cases e
          -- A text that ends within the mark of a comment holds no directive.
          have other : ¬ ['-', '-'] <+: cs ++ ds := by
            intro start
            rcases List.prefix_or_prefix_of_prefix start (List.prefix_append cs ds) with
              inside | cut
            · exact comment inside
            · rcases List.prefix_cons_iff.1 cut with rfl | ⟨cs', rfl, cut'⟩
              · cases ends
              · rcases List.prefix_cons_iff.1 cut' with rfl | ⟨cs'', rfl, -⟩
                · cases ends
                · exact comment (List.prefix_append ['-', '-'] cs'')
          rw [List.cons_append, Markup.first?_directive other, afterDirective?_append ends,
            Option.map_some]
      · have other : c ≠ '?' ∧ c ≠ '!' ∧ c ≠ '/' := ⟨instruction, declaration, endTag⟩
        rw [Markup.first?_startTag other] at found
        obtain ⟨_, ends, e⟩ := Option.map_eq_some_iff.1 found
        cases e
        rw [List.cons_append, Markup.first?_startTag other, ← List.cons_append,
          splitTag?_append ends, Option.map_some]

/-- **The pieces of a text are the first pieces of each text that it begins.** -/
theorem markups_mono {cs ds : List Char} (beginning : cs <+: ds) : markups cs <+: markups ds := by
  obtain ⟨more, rfl⟩ := beginning
  fun_induction markups cs with
  | case1 => exact List.nil_prefix
  | case2 cs cut => exact List.nil_prefix
  | case3 cs m rest found ih =>
      rw [List.cons_append, markups_of_first?_eq_some (Markup.first?_append found more)]
      exact List.cons_prefix_cons.2 ⟨rfl, ih⟩
  | case4 c cs other ih =>
      rw [List.cons_append, markups_of_ne other]
      exact ih

end MediaSniff.Xml
