/-
# MediaSniff.Proofs.Glob.Spelling — names spelled like the pattern

A name that is written exactly as a pattern without brackets asks for should be accepted by
the rule of that pattern. For a rule that heeds case, and for one without a star, it always
is. A rule that ignores case compares lowercase forms, and the text that it asks for is
lowercased beside the star of the pattern where the name has it beside other characters. The
two forms differ in a final sigma only, so the rule overlooks the name exactly if its text
meets the star with a sigma and the name goes on there with a cased character
(`alwaysFound_iff_of_bracketless`).
-/
import MediaSniff.Proofs.Glob.Lookup
import MediaSniff.Proofs.Glob.Meaning
import MediaSniff.Proofs.Text.FinalSigma
import MediaSniff.Proofs.Text.Lowered

set_option autoImplicit false

namespace MediaSniff.Glob

/-- Whether a rule speaks for its type on a name in whatever set of rules it stands. -/
def AlwaysFound (g : Glob) (name : String) : Prop :=
  ∀ (globs : List Glob) (unknown : TypeId), g ∈ globs →
    g.candidate ∈ (Index.ofList globs unknown).candidates name

theorem alwaysFound_iff_acceptsName {g : Glob} {name : String} :
    g.AlwaysFound name ↔ g.acceptsName name = true := by
  constructor
  · intro found
    by_contra refused
    -- Alone and refusing the name, the rule leaves it to the unknown type.
    have alone := found [g] ⟨g.owner.index + 1⟩ List.mem_cons_self
    rw [candidates_of_accepted_nil _ (by simp [refused]), List.mem_singleton] at alone
    have owner : g.owner = ⟨g.owner.index + 1⟩ := congrArg Candidate.type alone
    exact absurd (congrArg TypeId.index owner) (Nat.ne_of_lt (Nat.lt_succ_self _))
  · intro accepts globs unknown mem
    exact (mem_candidates_iff unknown ⟨g, mem, accepts⟩).2 ⟨g, mem, accepts, rfl⟩

/-! ## Texts without marks -/

/-- Whether a text has neither stars nor brackets. -/
def Plain (cs : List Char) : Prop := ∀ c ∈ cs, c ∉ ['*', '[', ']']

theorem plain_iff {cs : List Char} : Plain cs ↔ '*' ∉ cs ∧ '[' ∉ cs ∧ ']' ∉ cs := by
  simp only [Plain, List.mem_cons, List.not_mem_nil, or_false, not_or, imp_and, forall_and]
  simp only [imp_not_comm, forall_eq]

theorem Plain.lowerWithin {cs : List Char} (plain : Plain cs) (before after : List Char) :
    Plain (Text.lowerWithin before after cs) := by
  have marks : ['*', '[', ']'].all Text.isMark = true := by decide
  intro c mem marked
  have mark : Text.isMark c = true := List.all_eq_true.1 marks c marked
  exact plain c ((Text.mark_mem_lowerWithin mark).1 mem) marked

theorem Plain.lowerAfter {cs : List Char} (plain : Plain cs) (before : List Char) :
    Plain (Text.lowerAfter before cs) := by
  rw [← Text.lowerWithin_nil_after]
  exact plain.lowerWithin before []

theorem Plain.encode {cs : List Char} (plain : Plain cs) :
    ∀ b ∈ Text.encode cs, b ∉ [star, openBracket, closeBracket] := by
  obtain ⟨starless, opening, closing⟩ := plain_iff.1 plain
  intro b mem
  simp only [List.mem_cons, List.not_mem_nil, or_false, not_or]
  refine ⟨?_, ?_, ?_⟩
  · rintro rfl
    exact starless ((Text.ascii_mem_encode rfl (by decide)).1 mem)
  · rintro rfl
    exact opening ((Text.ascii_mem_encode rfl (by decide)).1 mem)
  · rintro rfl
    exact closing ((Text.ascii_mem_encode rfl (by decide)).1 mem)

section PlainTexts

variable {cs : List Char} {subject : Bytes}

theorem Plain.language_whole (plain : Plain cs) :
    Language (Text.encode cs) subject ↔ subject = Text.encode cs := by
  rw [Glob.language_whole fun mem => plain.encode star mem List.mem_cons_self,
    spells_of_plain plain.encode]

theorem Plain.language_trailing (plain : Plain cs) :
    Language (Text.encode ('*' :: cs)) subject ↔ Text.encode cs <:+ subject := by
  have starless : star ∉ Text.encode cs := fun mem =>
    plain.encode star mem List.mem_cons_self
  have starred : Text.encode ('*' :: cs) = star :: Text.encode cs := rfl
  rw [starred, Glob.language_trailing starless]
  simp only [spells_of_plain plain.encode, exists_eq_left]
  exact exists_congr fun any => eq_comm

theorem Plain.language_leading (plain : Plain cs) :
    Language (Text.encode (cs ++ ['*'])) subject ↔ Text.encode cs <+: subject := by
  have starless : star ∉ Text.encode cs := fun mem =>
    plain.encode star mem List.mem_cons_self
  have starred : Text.encode (cs ++ ['*']) = Text.encode cs ++ [star] := Text.encode_append
  rw [starred, Glob.language_leading starless]
  constructor
  · rintro ⟨taken, any, spelled, rfl⟩
    rw [(spells_of_plain plain.encode).1 spelled]
    exact List.prefix_append _ _
  · rintro ⟨any, rfl⟩
    exact ⟨_, any, (spells_of_plain plain.encode).2 rfl, rfl⟩

end PlainTexts

/-! ## Names -/

theorem acceptsName_iff_language {pattern name : String} {caseSensitive : Bool} {weight : Nat}
    {owner : TypeId} {g : Glob} (compiled : compile pattern caseSensitive weight owner = .ok g) :
    g.acceptsName name = true ↔
      if caseSensitive then Language (Text.encode pattern.toList) (Text.encode name.toList)
      else Language (Text.encode (Text.lowerAfter [] pattern.toList))
        (Text.encode (Text.lowerAfter [] name.toList)) := by
  obtain ⟨-, -, shape, read, rfl⟩ := compile_eq_ok.1 compiled
  rw [acceptsName, accepts, shapeOf_accepts read]
  cases caseSensitive with
  | true => simp only [if_true, Text.utf8_eq_encode]
  | false =>
      simp only [Bool.false_eq_true, if_false, Text.utf8_eq_encode, Text.lowercase,
        String.toList_ofList]

/-- A text beside a star is lowercased as if it stood alone. -/
theorem startsCased_star : Text.startsCased ['*'] = false := by decide +kernel

section Names

variable {pattern name : String} {text : List Char} {caseSensitive : Bool} {weight : Nat}
  {owner : TypeId} {g : Glob}

theorem acceptsName_self (plain : Plain pattern.toList)
    (compiled : compile pattern caseSensitive weight owner = .ok g) :
    g.acceptsName pattern = true := by
  rw [acceptsName_iff_language compiled]
  split
  · exact plain.language_whole.2 rfl
  · exact (plain.lowerAfter []).language_whole.2 rfl

/-- **The name goes on before the text.** -/
theorem acceptsName_trailing_iff (plain : Plain text)
    (compiled : compile pattern caseSensitive weight owner = .ok g)
    (asked : pattern.toList = '*' :: text) {front : List Char}
    (named : name.toList = front ++ text) :
    g.acceptsName name = true ↔ caseSensitive = true ∨
      ¬ (Text.opensWithSigma text = true ∧ Text.startsCased front.reverse = true) := by
  rw [acceptsName_iff_language compiled, asked, named]
  cases caseSensitive with
  | true =>
      rw [if_pos rfl, plain.language_trailing, Text.encode_append]
      exact iff_of_true (List.suffix_append _ _) (Or.inl rfl)
  | false =>
      have lowered : Text.lowerAfter [] ('*' :: text) = '*' :: Text.lowerAfter ['*'] text := rfl
      rw [if_neg (by decide), lowered, (plain.lowerAfter ['*']).language_trailing,
        Text.encode_suffix_iff, Text.lowerAfter_eq_iff, startsCased_star, List.append_nil]
      cases Text.startsCased front.reverse <;> simp

/-- A lowercased text has no sigma left that could come out in another way. -/
theorem acceptsName_lowered (plain : Plain text)
    (compiled : compile pattern caseSensitive weight owner = .ok g)
    (asked : pattern.toList = '*' :: text) (front : List Char)
    (named : name.toList = front ++ if caseSensitive then text else Text.lowerAfter [] text) :
    g.acceptsName name = true := by
  cases caseSensitive with
  | true => exact (acceptsName_trailing_iff plain compiled asked named).2 (Or.inl rfl)
  | false =>
      have lowered : Text.lowerAfter [] ('*' :: text) = '*' :: Text.lowerAfter ['*'] text := rfl
      have alone : Text.lowerAfter ['*'] text = Text.lowerAfter [] text :=
        Text.lowerAfter_eq_iff.2 (Or.inl startsCased_star)
      rw [acceptsName_iff_language compiled, asked, named, if_neg (by decide), lowered, alone,
        (plain.lowerAfter []).language_trailing, if_neg (by decide), Text.lowerAfter_append,
        Text.lowerAfter_lowerAfter, Text.encode_append]
      exact List.suffix_append _ _

/-- **The name goes on behind the text.** -/
theorem acceptsName_leading_iff (plain : Plain text)
    (compiled : compile pattern caseSensitive weight owner = .ok g)
    (asked : pattern.toList = text ++ ['*']) {back : List Char}
    (named : name.toList = text ++ back) :
    g.acceptsName name = true ↔ caseSensitive = true ∨
      ¬ (Text.closesWithSigma text = true ∧ Text.startsCased back = true) := by
  rw [acceptsName_iff_language compiled, asked, named]
  cases caseSensitive with
  | true =>
      rw [if_pos rfl, plain.language_leading, Text.encode_append]
      exact iff_of_true (List.prefix_append _ _) (Or.inl rfl)
  | false =>
      have lowered : Text.lowerAfter [] (text ++ ['*']) =
          Text.lowerWithin [] ['*'] text ++ ['*'] := Text.lowerAfter_append
      rw [if_neg (by decide), lowered, (plain.lowerWithin [] ['*']).language_leading,
        Text.encode_prefix_iff, Text.lowerWithin_nil_eq_iff, startsCased_star]
      cases Text.startsCased back <;> simp

end Names

/-! ## Patterns -/

/-- **A literal rule on the names that are spelled like its pattern.** A rule compiled from a
pattern without brackets is always found for the pattern itself if that has no star. For a
pattern that begins with a star it is found for every name that ends with the rest of the
pattern, and for one that ends with a star for every name that begins with it, except where
the rule ignores case, the text has at the star a capital sigma whose form is left open by the
text itself, and what the name has in the place of the star is cased there. Characters that
are case-ignorable do not count. -/
theorem alwaysFound_iff_of_bracketless {pattern : String} {caseSensitive : Bool} {weight : Nat}
    {owner : TypeId} {g : Glob} (opening : '[' ∉ pattern.toList) (closing : ']' ∉ pattern.toList)
    (compiled : compile pattern caseSensitive weight owner = .ok g) :
    g.candidate = ⟨weight, owner⟩ ∧
    ('*' ∉ pattern.toList → g.AlwaysFound pattern) ∧
    (∀ text front : String, pattern = "*" ++ text →
      (g.AlwaysFound (front ++ text) ↔ caseSensitive = true ∨
        ¬ (Text.opensWithSigma text.toList = true ∧
          Text.startsCased front.toList.reverse = true))) ∧
    (∀ text back : String, pattern = text ++ "*" →
      (g.AlwaysFound (text ++ back) ↔ caseSensitive = true ∨
        ¬ (Text.closesWithSigma text.toList = true ∧ Text.startsCased back.toList = true))) := by
  have star := ((exists_compile_iff_of_bracketless opening closing).1 ⟨g, compiled⟩).2
  simp only [alwaysFound_iff_acceptsName]
  refine ⟨?_, fun starless => ?_, ?_, ?_⟩
  · obtain ⟨-, -, shape, -, rfl⟩ := compile_eq_ok.1 compiled
    rfl
  · exact acceptsName_self (plain_iff.2 ⟨starless, opening, closing⟩) compiled
  · rintro text front rfl
    have asked : ("*" ++ text).toList = '*' :: text.toList := String.toList_append
    rw [asked] at opening closing star
    have plain : Plain text.toList :=
      plain_iff.2 ⟨(starAtOneEnd_cons_iff.1 star).2, List.not_mem_of_not_mem_cons opening,
        List.not_mem_of_not_mem_cons closing⟩
    exact acceptsName_trailing_iff plain compiled asked String.toList_append
  · rintro text back rfl
    have asked : (text ++ "*").toList = text.toList ++ ['*'] := String.toList_append
    rw [asked] at opening closing star
    have plain : Plain text.toList :=
      plain_iff.2 ⟨(starAtOneEnd_concat_iff.1 star).2, mt (List.mem_append_left _) opening,
        mt (List.mem_append_left _) closing⟩
    exact acceptsName_leading_iff plain compiled asked String.toList_append

/-- A rule for names with a Greek ending finds it behind a number and not behind a letter. -/
theorem greekEnding_found :
    ('[' ∉ "*.Σ".toList ∧ ']' ∉ "*.Σ".toList) ∧
    ∃ g, compile "*.Σ" false 50 ⟨7⟩ = .ok g ∧
      g.AlwaysFound ("42" ++ ".Σ") ∧ ¬ g.AlwaysFound ("a" ++ ".Σ") := by
  have bracketless : '[' ∉ "*.Σ".toList ∧ ']' ∉ "*.Σ".toList := by decide +kernel
  have compiles : ∃ g, compile "*.Σ" false 50 ⟨7⟩ = .ok g := by decide +kernel
  obtain ⟨g, compiled⟩ := compiles
  have found := (alwaysFound_iff_of_bracketless bracketless.1 bracketless.2 compiled).2.2.1
  refine ⟨bracketless, g, compiled, (found ".Σ" "42" rfl).2 (Or.inr ?_), ?_⟩
  · decide +kernel
  · rw [found ".Σ" "a" rfl]
    decide +kernel

/-- Names spelled like their patterns that lookup overlooks: a sigma ends a word in the one
and not in the other. -/
theorem finalSigma_overlooked :
    (∃ g, compile "*.Σ" false 50 ⟨7⟩ = .ok g ∧
      (⟨50, ⟨7⟩⟩ : Candidate) ∉ (Index.ofList [g] ⟨0⟩).candidates ("a" ++ ".Σ")) ∧
    ∃ g, compile "ΑΣ*" false 50 ⟨7⟩ = .ok g ∧
      (⟨50, ⟨7⟩⟩ : Candidate) ∉ (Index.ofList [g] ⟨0⟩).candidates ("ΑΣ" ++ "Α") := by
  have overlooked : ∀ pattern name : String,
      (∃ g, compile pattern false 50 ⟨7⟩ = .ok g ∧ g.acceptsName name = false) →
      ∃ g, compile pattern false 50 ⟨7⟩ = .ok g ∧
        (⟨50, ⟨7⟩⟩ : Candidate) ∉ (Index.ofList [g] ⟨0⟩).candidates name := by
    rintro pattern name ⟨g, compiled, refused⟩
    refine ⟨g, compiled, ?_⟩
    rw [candidates_of_accepted_nil _ (by simp [refused])]
    decide
  exact ⟨overlooked _ _ (by decide +kernel), overlooked _ _ (by decide +kernel)⟩

end MediaSniff.Glob
