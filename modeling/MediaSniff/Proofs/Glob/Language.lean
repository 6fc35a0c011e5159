/-
# MediaSniff.Proofs.Glob.Language — what a filename pattern means

The text of a pattern describes a language of byte strings (`Language`): a star at its
beginning or its end stands for any bytes, a bracket expression for one byte of its class
(`InClass`), and every other byte for itself (`Spells`). Nothing of this mentions shapes,
segments or widths.

A star at one end cannot be read in two ways, so the language of a text is told by the
anchor of its star and by what the rest of it spells (`language_iff_anchorOf`).
-/
import MediaSniff.Glob.Compile
import Mathlib.Data.List.Basic

set_option autoImplicit false

namespace MediaSniff.Glob

/-! ## Languages of patterns -/

/-- Whether a byte is in the class that the content of a bracket expression describes. The
content is read from the left: a byte with a dash and another byte behind it is a range,
any other byte stands alone. -/
def InClass : (content : Bytes) → UInt8 → Prop
  | [], _ => False
  | lo :: d :: hi :: rest, b =>
      if d = dash then (lo ≤ b ∧ b ≤ hi) ∨ InClass rest b
      else b = lo ∨ InClass (d :: hi :: rest) b
  | c :: rest, b => b = c ∨ InClass rest b

/-- A pattern text without stars spells a subject: a bracket expression, which ends at the
next closing bracket, spells one byte of its class, and any other byte spells itself. -/
inductive Spells : (text subject : Bytes) → Prop
  | nil : Spells [] []
  | byte {b : UInt8} {text subject : Bytes} (plain : b ∉ [star, openBracket, closeBracket])
      (rest : Spells text subject) : Spells (b :: text) (b :: subject)
  | bracket {content text subject : Bytes} {b : UInt8} (closes : closeBracket ∉ content)
      (mem : InClass content b) (rest : Spells text subject) :
      Spells (openBracket :: (content ++ closeBracket :: text)) (b :: subject)

/-- The language of a pattern text. A star at one end stands for any bytes there. -/
inductive Language : (text subject : Bytes) → Prop
  | whole {text subject : Bytes} (spelled : Spells text subject) : Language text subject
  | trailing {text subject : Bytes} (any : Bytes) (spelled : Spells text subject) :
      Language (star :: text) (any ++ subject)
  | leading {text subject : Bytes} (any : Bytes) (spelled : Spells text subject) :
      Language (text ++ [star]) (subject ++ any)

theorem not_spells_star {text subject : Bytes} : ¬ Spells (star :: text) subject := by
  intro spelled
  cases spelled with
  | byte plain rest => exact plain (by simp)

theorem spells_byte {b : UInt8} {text subject : Bytes}
    (plain : b ∉ [star, openBracket, closeBracket]) :
    Spells (b :: text) subject ↔ ∃ rest, subject = b :: rest ∧ Spells text rest := by
  constructor
  · intro spelled
    cases spelled with
    | byte plain rest => exact ⟨_, rfl, rest⟩
    | bracket closes mem rest => exact absurd (by simp) plain
  · rintro ⟨rest, rfl, spelled⟩
    exact .byte plain spelled

/-- A text that spells something does not end with a star. -/
theorem Spells.getLast? {text subject : Bytes} (spelled : Spells text subject) :
    text.getLast? ≠ some star := by
  induction spelled with
  | nil => nofun
  | @byte b text subject plain rest ih =>
      intro last
      cases text with
      | nil =>
          have same : b = star := by simpa using last
          exact plain (by simp [same])
      | cons c text => exact ih (by simpa using last)
  | @bracket content text subject b closes mem rest ih =>
      intro last
      rw [← List.cons_append, List.getLast?_append_of_ne_nil _ (List.cons_ne_nil _ _)] at last
      cases text with
      | nil => exact absurd last (by decide)
      | cons c text => exact ih (by simpa using last)

/-- A run without marks spells itself, whatever follows. -/
theorem spells_run {run text subject : Bytes}
    (plain : ∀ b ∈ run, b ∉ [star, openBracket, closeBracket]) :
    Spells (run ++ text) subject ↔ ∃ rest, subject = run ++ rest ∧ Spells text rest := by
  induction run generalizing subject with
  | nil => simp
  | cons b run ih =>
      obtain ⟨here, later⟩ := List.forall_mem_cons.1 plain
      rw [List.cons_append, spells_byte here]
      simp only [ih later]
      constructor
      · rintro ⟨_, rfl, rest, rfl, spelled⟩
        exact ⟨rest, rfl, spelled⟩
      · rintro ⟨rest, rfl, spelled⟩
        exact ⟨_, rfl, rest, rfl, spelled⟩

/-- A text without marks spells itself. -/
theorem spells_of_plain {text subject : Bytes}
    (plain : ∀ b ∈ text, b ∉ [star, openBracket, closeBracket]) :
    Spells text subject ↔ subject = text := by
  have whole : Spells (text ++ []) subject ↔ _ := spells_run plain
  rw [List.append_nil] at whole
  rw [whole]
  constructor
  · rintro ⟨rest, rfl, nothing⟩
    cases nothing
    exact List.append_nil text
  · rintro rfl
    exact ⟨[], (List.append_nil subject).symm, .nil⟩

/-! ## Classes -/

theorem inClass_cons {c b : UInt8} {rest : Bytes}
    (alone : rest.head? ≠ some dash ∨ rest.length ≤ 1) :
    InClass (c :: rest) b ↔ b = c ∨ InClass rest b := by
  match rest with
  | [] => rfl
  | [d] => rfl
  | d :: hi :: rest =>
      have other : d ≠ dash := by simpa using alone
      rw [InClass, if_neg other]

/-- A rest that is not long enough for a range. -/
theorem length_le_one {rest : Bytes}
    (short : ∀ d hi later, rest = d :: hi :: later → False) : rest.length ≤ 1 := by
  rcases rest with _ | ⟨d, _ | ⟨hi, later⟩⟩
  · exact Nat.zero_le 1
  · exact Nat.le_refl 1
  · exact absurd rfl (short d hi later)

theorem inClass_range {lo hi b : UInt8} {rest : Bytes} :
    InClass (lo :: dash :: hi :: rest) b ↔ (lo ≤ b ∧ b ≤ hi) ∨ InClass rest b := by
  rw [InClass, if_pos rfl]

/-- Without a dash there are no ranges. -/
theorem inClass_of_dashless {content : Bytes} (dashless : dash ∉ content) {b : UInt8} :
    InClass content b ↔ b ∈ content := by
  induction content with
  | nil => simp [InClass]
  | cons c rest ih =>
      have dashless' : dash ∉ rest := fun mem => dashless (List.mem_cons_of_mem c mem)
      have alone : rest.head? ≠ some dash := fun first => dashless' (List.mem_of_mem_head? first)
      rw [inClass_cons (Or.inl alone), ih dashless', List.mem_cons]

/-! ## Open bracket expressions -/

/-- What a text spells when a bracket expression is open whose content has been read in
part: first a byte of the class of the whole content, then what follows the bracket. -/
def SpellsOpen (content text subject : Bytes) : Prop :=
  ∃ more later b rest, text = more ++ closeBracket :: later ∧ closeBracket ∉ more ∧
    InClass (content ++ more) b ∧ Spells later rest ∧ subject = b :: rest

theorem spells_openBracket {text subject : Bytes} :
    Spells (openBracket :: text) subject ↔ SpellsOpen [] text subject := by
  constructor
  · intro spelled
    generalize written : openBracket :: text = whole at spelled
    cases spelled with
    | nil => cases written
    | byte plain rest =>
        cases written
        exact absurd (by decide) plain
    | bracket closes mem rest =>
        cases written
        exact ⟨_, _, _, _, rfl, closes, mem, rest, rfl⟩
  · rintro ⟨more, later, b, rest, rfl, closes, mem, spelled, rfl⟩
    exact .bracket closes mem spelled

theorem spellsOpen_byte {c : UInt8} (inside : c ≠ closeBracket) {content text subject : Bytes} :
    SpellsOpen content (c :: text) subject ↔ SpellsOpen (content ++ [c]) text subject := by
  constructor
  · rintro ⟨more, later, b, rest, written, closes, mem, spelled, rfl⟩
    cases more with
    | nil =>
        cases written
        exact absurd rfl inside
    | cons c' more =>
        cases written
        refine ⟨more, later, b, rest, rfl, fun there => closes (List.mem_cons_of_mem c there), ?_,
          spelled, rfl⟩
        rwa [List.append_assoc, List.singleton_append]
  · rintro ⟨more, later, b, rest, rfl, closes, mem, spelled, rfl⟩
    refine ⟨c :: more, later, b, rest, rfl, ?_, ?_, spelled, rfl⟩
    · simpa using ⟨inside.symm, closes⟩
    · rwa [List.append_assoc, List.singleton_append] at mem

theorem spellsOpen_run {more : Bytes} (inside : closeBracket ∉ more)
    {content text subject : Bytes} :
    SpellsOpen content (more ++ text) subject ↔ SpellsOpen (content ++ more) text subject := by
  induction more generalizing content with
  | nil => rw [List.nil_append, List.append_nil]
  | cons c more ih =>
      have other : c ≠ closeBracket := fun same => inside (same ▸ List.mem_cons_self)
      rw [List.cons_append, spellsOpen_byte other, ih (mt (List.mem_cons_of_mem c) inside),
        List.append_assoc, List.singleton_append]

theorem spellsOpen_closeBracket {content text subject : Bytes} :
    SpellsOpen content (closeBracket :: text) subject ↔
      ∃ b rest, InClass content b ∧ Spells text rest ∧ subject = b :: rest := by
  constructor
  · rintro ⟨more, later, b, rest, written, closes, mem, spelled, rfl⟩
    cases more with
    | nil =>
        cases written
        exact ⟨b, rest, by simpa using mem, spelled, rfl⟩
    | cons c more =>
        cases written
        exact absurd List.mem_cons_self closes
  · rintro ⟨b, rest, mem, spelled, rfl⟩
    exact ⟨[], text, b, rest, rfl, nofun, by simpa using mem, spelled, rfl⟩

/-! ## The star at one end -/

section Ends

variable {body subject : Bytes}

theorem language_whole (starless : star ∉ body) : Language body subject ↔ Spells body subject := by
  constructor
  · intro member
    cases member with
    | whole spelled => exact spelled
    | trailing any spelled => exact absurd List.mem_cons_self starless
    | leading any spelled => exact absurd (by simp) starless
  · exact .whole

theorem language_trailing (starless : star ∉ body) :
    Language (star :: body) subject ↔ ∃ any taken, Spells body taken ∧ subject = any ++ taken := by
  constructor
  · intro member
    generalize written : star :: body = text at member
    cases member with
    | whole spelled => exact absurd (written ▸ spelled) not_spells_star
    | trailing any spelled =>
        cases written
        exact ⟨any, _, spelled, rfl⟩
    | @leading text taken any spelled =>
        cases text with
        | nil =>
            cases spelled
            cases written
            exact ⟨any, [], .nil, (List.append_nil any).symm⟩
        | cons b text =>
            cases written
            exact absurd spelled not_spells_star
  · rintro ⟨any, taken, spelled, rfl⟩
    exact .trailing any spelled

theorem language_leading (starless : star ∉ body) :
    Language (body ++ [star]) subject ↔ ∃ taken any, Spells body taken ∧ subject = taken ++ any := by
  constructor
  · intro member
    generalize written : body ++ [star] = text at member
    cases member with
    | whole spelled =>
        refine absurd ?_ spelled.getLast?
        rw [← written, List.getLast?_concat]
    | @trailing text taken any spelled =>
        cases body with
        | nil =>
            cases written
            cases spelled
            exact ⟨[], any, .nil, List.append_nil any⟩
        | cons b body =>
            cases written
            exact absurd List.mem_cons_self starless
    | @leading text taken any spelled =>
        obtain rfl := List.append_cancel_right written
        exact ⟨taken, any, spelled, rfl⟩
  · rintro ⟨taken, any, spelled, rfl⟩
    exact .leading any spelled

/-- The language of a text by the anchor that its star names. -/
theorem language_iff_anchorOf {bytes : Bytes} (starless : star ∉ (anchorOf bytes).2)
    {subject : Bytes} :
    Language bytes subject ↔
      match (anchorOf bytes).1 with
      | .whole => Spells (anchorOf bytes).2 subject
      | .leading => ∃ taken any, Spells (anchorOf bytes).2 taken ∧ subject = taken ++ any
      | .trailing => ∃ any taken, Spells (anchorOf bytes).2 taken ∧ subject = any ++ taken := by
  cases bytes with
  | nil => exact language_whole starless
  | cons b rest =>
      by_cases first : b = star
      · have anchor : anchorOf (b :: rest) = (.trailing, rest) := by rw [anchorOf, if_pos first]
        rw [anchor] at starless ⊢
        rw [first]
        exact language_trailing starless
      · by_cases last : (b :: rest).getLast? = some star
        · have anchor : anchorOf (b :: rest) = (.leading, (b :: rest).dropLast) := by
            rw [anchorOf, if_neg first, if_pos last]
          rw [anchor] at starless ⊢
          conv_lhs => rw [← List.dropLast_append_getLast? star last]
          exact language_leading starless
        · have anchor : anchorOf (b :: rest) = (.whole, b :: rest) := by
            rw [anchorOf, if_neg first, if_neg last]
          rw [anchor] at starless ⊢
          exact language_whole starless

end Ends

end MediaSniff.Glob
