/-
# MediaSniff.Proofs.Glob.Meaning — a rule accepts the language of its pattern

What a compiled rule accepts is what the text of its pattern means
(`accepts_iff_language`). Three readings have to agree on it: that of a bracket expression,
whose listed bytes are put in front of its ranges (`bracketSegment_takes`); the scan of a
bracket pattern, which keeps the literal run that it has read and not yet put down and the
content of a bracket expression that is still open (`scan_takes`); and the shapes without
brackets (`literalShape_accepts`).

A pattern without brackets compiles exactly if it has no star or a single one, at one end and
not alone. Lowercasing neither makes nor removes a bracket and leaves stars where they are,
so this can be read off the pattern as it is written.
-/
import MediaSniff.Proofs.Glob.Language
import MediaSniff.Proofs.Glob.Segments
import MediaSniff.Proofs.Glob.Star

set_option autoImplicit false

namespace MediaSniff.Glob

/-! ## Bracket expressions -/

/-- What is read of the content of a bracket expression is its class. -/
theorem inClass_of_bracketItems {content bytes members : Bytes} {ranges : List Item}
    (read : bracketItems content bytes = .ok (members, ranges)) {b : UInt8} :
    InClass bytes b ↔ b ∈ members ∨ ∃ r ∈ ranges, r.contains b = true := by
  fun_induction bracketItems content bytes generalizing members ranges with
  | case1 =>
      cases read
      simp [InClass]
  | case2 => cases read
  | case3 => cases read
  | case4 => cases read
  | case5 lo hi rest _ _ _ ih =>
      obtain ⟨⟨members', ranges'⟩, readRest, read⟩ := Outcome.bind_eq_ok.1 read
      cases read
      have range : (Item.range lo hi).contains b = true ↔ lo ≤ b ∧ b ≤ hi := by
        simp [Item.contains]
      rw [inClass_range, ih readRest, List.exists_mem_cons_iff, range]
      exact or_left_comm
  | case6 c d hi rest _ other ih =>
      obtain ⟨⟨members', ranges'⟩, readRest, read⟩ := Outcome.bind_eq_ok.1 read
      cases read
      rw [inClass_cons (Or.inl (by simpa using other)), ih readRest, List.mem_cons, or_assoc]
  | case7 => cases read
  | case8 c rest short _ ih =>
      obtain ⟨⟨members', ranges'⟩, readRest, read⟩ := Outcome.bind_eq_ok.1 read
      cases read
      rw [inClass_cons (Or.inr (length_le_one short)), ih readRest, List.mem_cons, or_assoc]

/-- **A bracket expression takes one byte of its class.** -/
theorem bracketSegment_takes {text : String} {content : Bytes} {s : Segment}
    (done : bracketSegment text content = .ok s) {taken : Bytes} :
    s.Takes taken ↔ ∃ b, InClass content b ∧ taken = [b] := by
  have mixed : ∀ {s : Segment}, (bracketItems content content >>= fun r =>
      .ok (.anyOf (if r.1.isEmpty then r.2 else .set r.1 :: r.2))) = .ok s →
      (s.Takes taken ↔ ∃ b, InClass content b ∧ taken = [b]) := by
    intro s done
    obtain ⟨r, read, done⟩ := Outcome.bind_eq_ok.1 done
    cases done
    refine exists_congr fun b => and_congr_left fun _ => ?_
    rw [inClass_of_bracketItems read, List.any_eq_true]
    split
    · rename_i blank
      simp [List.isEmpty_iff.1 blank]
    · simp [Item.contains]
  unfold bracketSegment at done
  split at done
  · cases done
  · split at done
    · rename_i dashless
      cases done
      have dashless : dash ∉ content := by simpa using dashless
      refine exists_congr fun b => and_congr_left fun _ => ?_
      rw [inClass_of_dashless dashless]
      simp [Item.contains]
    · split at done
      · rename_i lo d hi _
        split at done
        · rename_i single
          cases done
          simp only [Bool.and_eq_true, decide_eq_true_eq] at single
          refine exists_congr fun b => and_congr_left fun _ => ?_
          rw [single.1, inClass_range]
          simp [Item.contains, InClass]
        · exact mixed done
      · exact mixed done

/-! ## The scan -/

theorem takes_flushRun {run : Bytes} {segments : List Segment} {taken : Bytes} :
    Takes (flushRun run segments) taken ↔
      ∃ others, Takes segments others ∧ taken = run.reverse ++ others := by
  unfold flushRun
  split
  · rename_i blank
    simp [List.isEmpty_iff.1 blank]
  · rw [takes_cons]
    simp [Segment.Takes]

/-- **What a scan makes of a text.** Its segments take the run that has been read and then
what the rest of the text spells, the content of an open bracket expression included. -/
theorem scan_takes {text : String} {bytes run : Bytes} {content : Option Bytes}
    {segments : List Segment} (done : scan text bytes run content = .ok segments)
    (starless : star ∉ bytes) {taken : Bytes} :
    Takes segments taken ↔ ∃ rest, taken = run.reverse ++ rest ∧
      content.elim (Spells bytes rest) fun read => SpellsOpen read.reverse bytes rest := by
  induction bytes generalizing run content segments taken with
  | nil =>
      cases content with
      | some content => cases done
      | none =>
          cases done
          rw [takes_flushRun]
          simp only [Option.elim_none]
          constructor
          · rintro ⟨others, took, rfl⟩
            rw [takes_nil.1 took]
            exact ⟨[], rfl, .nil⟩
          · rintro ⟨rest, rfl, spelled⟩
            cases spelled
            exact ⟨[], .nil, rfl⟩
  | cons b bytes ih =>
      have starless' : star ∉ bytes := fun mem => starless (List.mem_cons_of_mem b mem)
      have notStar : b ≠ star := fun same => starless (same ▸ List.mem_cons_self)
      cases content with
      | none =>
          rw [scan] at done
          split at done
          · rename_i opening
            rw [ih done starless', opening]
            simp only [Option.elim_none, Option.elim_some, List.reverse_nil, spells_openBracket]
          · rename_i notOpening
            split at done
            · cases done
            · rename_i notClosing
              have plain : b ∉ [star, openBracket, closeBracket] := by
                simp [notStar, notOpening, notClosing]
              rw [ih done starless']
              simp only [Option.elim_none, List.reverse_cons, List.append_assoc,
                List.singleton_append]
              constructor
              · rintro ⟨rest, rfl, spelled⟩
                exact ⟨b :: rest, rfl, .byte plain spelled⟩
              · rintro ⟨rest, rfl, spelled⟩
                obtain ⟨rest', rfl, spelled'⟩ := (spells_byte plain).1 spelled
                exact ⟨rest', rfl, spelled'⟩
      | some content =>
          rw [scan] at done
          split at done
          · cases done
          · split at done
            · rename_i closing
              obtain ⟨segment, bracket, done⟩ := Outcome.bind_eq_ok.1 done
              obtain ⟨later, scanned, done⟩ := Outcome.bind_eq_ok.1 done
              cases done
              rw [takes_flushRun, closing]
              simp only [Option.elim_some, spellsOpen_closeBracket, takes_cons,
                bracketSegment_takes bracket]
              have fresh : ∀ others, Takes later others ↔ Spells bytes others := fun others => by
                simpa using (ih scanned starless' : Takes later others ↔ _)
              constructor
              · rintro ⟨_, ⟨_, others, ⟨c, mem, rfl⟩, took, rfl⟩, rfl⟩
                exact ⟨_, rfl, c, others, mem, (fresh others).1 took, rfl⟩
              · rintro ⟨_, rfl, c, others, mem, spelled, rfl⟩
                exact ⟨_, ⟨[c], others, ⟨c, mem, rfl⟩, (fresh others).2 spelled, rfl⟩, rfl⟩
            · rename_i notClosing
              rw [ih done starless']
              simp only [Option.elim_some, spellsOpen_byte notClosing, List.reverse_cons]

/-! ## Shapes -/

theorem plain_of_bracketless {bytes body : Bytes} (sub : body ⊆ bytes) (starless : star ∉ body)
    (bracketless : openBracket ∉ bytes ∧ closeBracket ∉ bytes) :
    ∀ b ∈ body, b ∉ [star, openBracket, closeBracket] := by
  intro b mem
  simp only [List.mem_cons, List.not_mem_nil, or_false, not_or]
  exact ⟨fun same => starless (same ▸ mem), fun same => bracketless.1 (same ▸ sub mem),
    fun same => bracketless.2 (same ▸ sub mem)⟩

/-- A shape without brackets accepts the language of its text. -/
theorem literalShape_accepts {text : String} {shape : Shape} (done : literalShape text = .ok shape)
    (bracketless : openBracket ∉ Text.utf8 text ∧ closeBracket ∉ Text.utf8 text)
    {subject : Bytes} : shape.accepts subject = true ↔ Language (Text.utf8 text) subject := by
  have spelled : ∀ {body taken : Bytes}, body ⊆ Text.utf8 text → star ∉ body →
      (Spells body taken ↔ taken = body) := fun sub starless =>
    spells_of_plain (plain_of_bracketless sub starless bracketless)
  unfold literalShape at done
  cases bytes : Text.utf8 text with
  | nil =>
      rw [bytes] at done spelled
      cases done
      rw [language_whole List.not_mem_nil, spelled (List.Subset.refl _) List.not_mem_nil]
      simp [Shape.accepts]
  | cons b rest =>
      rw [bytes] at spelled
      simp only [bytes] at done
      split at done
      · rename_i starless
        cases done
        have starless : star ∉ b :: rest := by simpa using starless
        rw [language_whole starless, spelled (List.Subset.refl _) starless]
        simp [Shape.accepts]
      · split at done
        · rename_i first
          cases done
          simp only [Bool.and_eq_true, decide_eq_true_eq, Bool.not_eq_true', List.contains_eq_mem,
            decide_eq_false_iff_not] at first
          rw [first.1.1, language_trailing first.2]
          simp only [spelled (List.subset_cons_self b rest) first.2, Shape.accepts,
            List.isSuffixOf_iff_suffix]
          constructor
          · rintro ⟨any, rfl⟩
            exact ⟨any, rest, rfl, rfl⟩
          · rintro ⟨any, _, rfl, rfl⟩
            exact ⟨any, rfl⟩
        · split at done
          · rename_i last
            cases done
            simp only [Bool.and_eq_true, decide_eq_true_eq, Bool.not_eq_true',
              List.contains_eq_mem, decide_eq_false_iff_not] at last
            rw [← List.dropLast_append_getLast? star last.1.2, language_leading last.2]
            simp only [List.dropLast_append_getLast? star last.1.2,
              spelled (List.dropLast_subset (b :: rest)) last.2, Shape.accepts,
              List.isPrefixOf_iff_prefix]
            constructor
            · rintro ⟨any, rfl⟩
              exact ⟨_, any, rfl, rfl⟩
            · rintro ⟨_, any, rfl, rfl⟩
              exact ⟨any, rfl⟩
          · cases done

/-- A bracket pattern accepts the language of its text. -/
theorem bracketPattern_accepts {text : String} {p : Pattern} (done : bracketPattern text = .ok p)
    {subject : Bytes} : p.accepts subject = true ↔ Language (Text.utf8 text) subject := by
  unfold bracketPattern at done
  dsimp only at done
  split at done
  · cases done
  · rename_i starless
    have starless : star ∉ (anchorOf (Text.utf8 text)).2 := by simpa using starless
    obtain ⟨segments, scanned, done⟩ := Outcome.bind_eq_ok.1 done
    cases done
    have spelled : ∀ taken, Takes segments taken ↔ Spells (anchorOf (Text.utf8 text)).2 taken :=
      fun taken => by simpa using (scan_takes scanned starless : Takes segments taken ↔ _)
    rw [Pattern.accepts_iff, language_iff_anchorOf starless]
    cases (anchorOf (Text.utf8 text)).1 <;> simp only [spelled]

/-- **A shape accepts the language of its text.** -/
theorem shapeOf_accepts {text : String} {shape : Shape} (done : shapeOf text = .ok shape)
    {subject : Bytes} : shape.accepts subject = true ↔ Language (Text.utf8 text) subject := by
  rw [shapeOf] at done
  split at done
  · cases read : bracketPattern text with
    | error cause =>
        rw [read] at done
        cases done
    | ok p =>
        rw [read] at done
        cases done
        exact bracketPattern_accepts read
  · rename_i bracketless
    simp only [Bool.or_eq_true, List.contains_iff_mem, not_or] at bracketless
    exact literalShape_accepts done bracketless

/-! ## Patterns without brackets -/

theorem exists_literalShape_iff {text : String} (written : text ≠ "") :
    (∃ shape, literalShape text = .ok shape) ↔ StarAtOneEnd star (Text.utf8 text) := by
  unfold literalShape
  cases bytes : Text.utf8 text with
  | nil => exact absurd (Text.utf8_eq_nil_iff.1 bytes) written
  | cons b rest =>
      dsimp only
      split
      · rename_i starless
        exact iff_of_true ⟨_, rfl⟩ (Or.inl ⟨List.cons_ne_nil b rest, by simpa using starless⟩)
      · rename_i starred
        split
        · rename_i first
          simp only [Bool.and_eq_true, decide_eq_true_eq, Bool.not_eq_true',
            List.isEmpty_eq_false_iff, List.contains_eq_mem, decide_eq_false_iff_not] at first
          refine iff_of_true ⟨_, rfl⟩ (Or.inr ⟨rest, first.1.2, first.2, Or.inl ?_⟩)
          rw [first.1.1]
        · rename_i notFirst
          split
          · rename_i last
            simp only [Bool.and_eq_true, decide_eq_true_eq, Bool.not_eq_true',
              List.contains_eq_mem, decide_eq_false_iff_not] at last
            refine iff_of_true ⟨_, rfl⟩ (Or.inr ⟨(b :: rest).dropLast, ?_, last.2, Or.inr ?_⟩)
            · cases rest with
              | nil => exact absurd (by simpa using last.1.2) last.1.1
              | cons c rest => exact List.cons_ne_nil _ _
            · exact (List.dropLast_append_getLast? star last.1.2).symm
          · rename_i notLast
            refine iff_of_false nofun ?_
            rintro (⟨-, starless⟩ | ⟨body, more, starless, first | last⟩)
            · exact starred (by simpa using starless)
            · cases first
              exact notFirst (by simp [more, starless])
            · rw [last, List.getLast?_concat, List.dropLast_concat] at notLast
              cases body with
              | nil => exact more rfl
              | cons c body =>
                  cases last
                  have other : b ≠ star := fun same => starless (same ▸ List.mem_cons_self)
                  exact notLast (by simpa [other] using starless)

/-- Lowercasing makes no bracket. -/
theorem bracketless_of_pattern {pattern : String} (caseSensitive : Bool)
    (opening : '[' ∉ pattern.toList) (closing : ']' ∉ pattern.toList) :
    let text := if caseSensitive then pattern else Text.lowercase pattern
    openBracket ∉ Text.utf8 text ∧ closeBracket ∉ Text.utf8 text := by
  intro text
  have kept : ∀ c, Text.isMark c = true → (c ∈ text.toList ↔ c ∈ pattern.toList) := by
    intro c mark
    cases caseSensitive with
    | true => exact Iff.rfl
    | false => exact Text.mark_mem_lowercase mark
  rw [Text.ascii_mem_utf8 (c := '[') rfl (by decide),
    Text.ascii_mem_utf8 (c := ']') rfl (by decide), kept '[' (by decide), kept ']' (by decide)]
  exact ⟨opening, closing⟩

theorem exists_compile_iff_of_bracketless {pattern : String} {caseSensitive : Bool} {weight : Nat}
    {owner : TypeId} (opening : '[' ∉ pattern.toList) (closing : ']' ∉ pattern.toList) :
    (∃ g, compile pattern caseSensitive weight owner = .ok g) ↔
      (1 ≤ weight ∧ weight ≤ 100) ∧ StarAtOneEnd '*' pattern.toList := by
  obtain ⟨noOpening, noClosing⟩ := bracketless_of_pattern caseSensitive opening closing
  have blank : (if caseSensitive then pattern else Text.lowercase pattern) = "" ↔ pattern = "" := by
    split
    · exact Iff.rfl
    · exact Text.lowercase_eq_empty_iff
  rw [← starAtOneEnd_utf8_iff pattern caseSensitive]
  simp only [compile_eq_ok]
  generalize (if caseSensitive then pattern else Text.lowercase pattern) = text at *
  have literal : shapeOf text = literalShape text := by
    rw [shapeOf, if_neg (by simp [noOpening, noClosing])]
  by_cases written : pattern = ""
  · have nothing : ¬ StarAtOneEnd star (Text.utf8 text) := by
      rw [Text.utf8_eq_nil_iff.2 (blank.2 written)]
      rintro (⟨text, -⟩ | ⟨body, -, -, first | last⟩)
      · exact text rfl
      · cases first
      · exact List.cons_ne_nil star [] (List.append_eq_nil_iff.1 last.symm).2
    refine iff_of_false ?_ fun both => nothing both.2
    rintro ⟨g, -, there, -⟩
    simp [written] at there
  · rw [← exists_literalShape_iff (fun same => written (blank.1 same)), ← literal]
    have there : pattern.isEmpty = false := by simpa using written
    constructor
    · rintro ⟨g, inRange, -, shape, read, -⟩
      exact ⟨inRange, shape, read⟩
    · rintro ⟨inRange, shape, read⟩
      exact ⟨_, inRange, there, shape, read, rfl⟩

/-- **A compiled rule accepts exactly the language of its pattern**, lowercased first if the
rule ignores case, and a pattern with brackets can be tried by position without an access
outside the subject. A pattern without brackets compiles exactly if its weight is in the range
and it has no star, or a single one at one end and more. -/
theorem accepts_iff_language (pattern : String) (caseSensitive : Bool) (weight : Nat)
    (owner : TypeId) :
    let text := Text.utf8 (if caseSensitive then pattern else Text.lowercase pattern)
    (∀ g, compile pattern caseSensitive weight owner = .ok g → ∀ subject : Bytes,
      (g.accepts subject = true ↔ Language text subject) ∧
      ∀ p, g.shape = .pattern p → p.acceptsAt? subject = some (g.accepts subject)) ∧
    ('[' ∉ pattern.toList → ']' ∉ pattern.toList →
      ((∃ g, compile pattern caseSensitive weight owner = .ok g) ↔
        (1 ≤ weight ∧ weight ≤ 100) ∧ StarAtOneEnd '*' pattern.toList)) := by
  intro text
  refine ⟨fun g compiled subject => ?_, exists_compile_iff_of_bracketless⟩
  obtain ⟨-, -, shape, read, rfl⟩ := compile_eq_ok.1 compiled
  refine ⟨shapeOf_accepts read, ?_⟩
  rintro p rfl
  exact p.acceptsAt?_eq subject

/-- Two rules for manual pages: one with a class of digits and a letter, one without
brackets. -/
theorem manualPages_language :
    (∃ g, compile "*.[1-9N]" false 50 ⟨7⟩ = .ok g ∧
      Language (Text.utf8 (Text.lowercase "*.[1-9N]")) (Text.utf8 "ls.n") ∧
      ¬ Language (Text.utf8 (Text.lowercase "*.[1-9N]")) (Text.utf8 "ls.0")) ∧
    (∃ g, compile "*.man" true 100 ⟨7⟩ = .ok g) := by
  constructor
  · have run : ∃ g, compile "*.[1-9N]" false 50 ⟨7⟩ = .ok g ∧
        g.accepts (Text.utf8 "ls.n") = true ∧ g.accepts (Text.utf8 "ls.0") = false := by
      decide +kernel
    obtain ⟨g, compiled, accepts, refuses⟩ := run
    have language := (accepts_iff_language "*.[1-9N]" false 50 ⟨7⟩).1 g compiled
    refine ⟨g, compiled, (language _).1.1 accepts, fun member => ?_⟩
    have accepted := (language _).1.2 member
    rw [refuses] at accepted
    cases accepted
  · refine ((accepts_iff_language "*.man" true 100 ⟨7⟩).2 (by decide) (by decide)).2 ?_
    exact ⟨by decide, Or.inr ⟨['.', 'm', 'a', 'n'], by decide, by decide, Or.inl rfl⟩⟩

end MediaSniff.Glob
