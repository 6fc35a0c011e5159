/-
# MediaSniff.Proofs.Glob.Brackets — which bracket expressions are read

The content of a bracket expression is a sequence of items, single bytes and ranges, none of
which begins or ends with a dash (`Itemised`). Reading it from the left accepts these contents
and no others (`exists_bracketItems_iff`), and a content that is read takes the bytes of its
items, whichever way it is compiled (`bracketSegment_takes_items`).

A content of three bytes with a dash between the others and a rising range does not go this
way. It is taken as it is, and so a dash gets through at an end of such a range (`DashRange`).
Nothing else does: a pattern whose brackets are balanced compiles exactly if each of their
contents is a sequence of items or such a range (`compile_iff_of_bracketed`).
-/
import MediaSniff.Proofs.Glob.Meaning

set_option autoImplicit false

namespace MediaSniff.Glob

/-! ## Contents of bracket expressions -/

/-- A sequence of items: bytes that stand alone, and rising ranges of two bytes with a dash
between them. A dash neither stands alone nor ends a range. -/
inductive Itemised : Bytes → Prop
  | nil : Itemised []
  | single {b : UInt8} {rest : Bytes} (solid : b ≠ dash) (later : Itemised rest) :
      Itemised (b :: rest)
  | range {lo hi : UInt8} {rest : Bytes} (begins : lo ≠ dash) (ends : hi ≠ dash)
      (rises : lo ≤ hi) (later : Itemised rest) : Itemised (lo :: dash :: hi :: rest)

/-- A rising range of which one end is a dash. -/
def DashRange (content : Bytes) : Prop :=
  ∃ lo hi, content = [lo, dash, hi] ∧ lo < hi ∧ (lo = dash ∨ hi = dash)

theorem not_itemised_dash {rest : Bytes} : ¬ Itemised (dash :: rest) := by
  intro itemised
  cases itemised with
  | single solid later => exact solid rfl
  | range begins ends rises later => exact begins rfl

/-- A byte with no dash behind it stands alone. -/
theorem itemised_single {b d : UInt8} {rest : Bytes} (solid : b ≠ dash) (other : d ≠ dash) :
    Itemised (b :: d :: rest) ↔ Itemised (d :: rest) := by
  constructor
  · intro itemised
    cases itemised with
    | single _ later => exact later
    | range begins ends rises later => exact absurd rfl other
  · exact .single solid

/-- A byte with a dash behind it begins a range. -/
theorem itemised_range {lo hi : UInt8} {rest : Bytes} (begins : lo ≠ dash) :
    Itemised (lo :: dash :: hi :: rest) ↔ hi ≠ dash ∧ lo ≤ hi ∧ Itemised rest := by
  constructor
  · intro itemised
    cases itemised with
    | single _ later => exact absurd later not_itemised_dash
    | range _ ends rises later => exact ⟨ends, rises, later⟩
  · rintro ⟨ends, rises, later⟩
    exact .range begins ends rises later

theorem itemised_of_dashless {content : Bytes} (dashless : dash ∉ content) :
    Itemised content := by
  induction content with
  | nil => exact .nil
  | cons b rest ih =>
      exact .single (fun same => dashless (same ▸ List.mem_cons_self))
        (ih fun later => dashless (List.mem_cons_of_mem b later))

theorem Itemised.head? {content : Bytes} (itemised : Itemised content) :
    content.head? ≠ some dash := by
  cases itemised with
  | nil => nofun
  | single solid later => simpa using solid
  | range begins ends rises later => simpa using begins

theorem Itemised.getLast? {content : Bytes} (itemised : Itemised content) :
    content.getLast? ≠ some dash := by
  induction itemised with
  | nil => nofun
  | @single b rest solid later ih =>
      cases rest with
      | nil => simpa using solid
      | cons c rest => rwa [List.getLast?_cons_cons]
  | @range lo hi rest begins ends rises later ih =>
      cases rest with
      | nil => simpa using ends
      | cons c rest =>
          rwa [List.getLast?_cons_cons, List.getLast?_cons_cons, List.getLast?_cons_cons]

/-- **Reading from the left** accepts sequences of items. -/
theorem exists_bracketItems_iff (content : Bytes) {bytes : Bytes} :
    (∃ r, bracketItems content bytes = .ok r) ↔ Itemised bytes := by
  fun_induction bracketItems content bytes with
  | case1 => exact iff_of_true ⟨_, rfl⟩ .nil
  | case2 => exact iff_of_false Outcome.not_exists_error_eq_ok not_itemised_dash
  | case3 b rest solid =>
      rw [itemised_range solid]
      exact iff_of_false Outcome.not_exists_error_eq_ok fun all => all.1 rfl
  | case4 b hi rest solid ends falls =>
      rw [itemised_range solid]
      exact iff_of_false Outcome.not_exists_error_eq_ok fun all =>
        absurd falls (UInt8.not_lt.2 all.2.1)
  | case5 b hi rest solid ends rises ih =>
      rw [Outcome.exists_bind_eq_ok fun _ => ⟨_, rfl⟩, ih, itemised_range solid]
      exact (and_iff_right ends).symm.trans (and_congr_right fun _ =>
        (and_iff_right (UInt8.not_lt.1 rises)).symm)
  | case6 b d hi rest solid other ih =>
      rw [Outcome.exists_bind_eq_ok fun _ => ⟨_, rfl⟩, ih, itemised_single solid other]
  | case7 => exact iff_of_false Outcome.not_exists_error_eq_ok not_itemised_dash
  | case8 b rest short solid ih =>
      rw [Outcome.exists_bind_eq_ok fun _ => ⟨_, rfl⟩, ih]
      refine ⟨.single solid, fun itemised => ?_⟩
      cases itemised with
      | single _ later => exact later
      | range begins ends rises later => exact absurd rfl (short _ _ _)

instance (content : Bytes) : Decidable (Itemised content) :=
  decidable_of_iff (∃ r, bracketItems content content = .ok r) (exists_bracketItems_iff content)

/-- **A bracket expression is read** if its content is a sequence of items, or a rising range
with a dash at an end, and is there. -/
theorem exists_bracketSegment_iff (text : String) {content : Bytes} :
    (∃ s, bracketSegment text content = .ok s) ↔
      content ≠ [] ∧ (Itemised content ∨ DashRange content) := by
  have mixed : (∃ s, (bracketItems content content >>= fun r =>
      .ok (.anyOf (if r.1.isEmpty then r.2 else .set r.1 :: r.2))) =
        (.ok s : Except Error Segment)) ↔ Itemised content := by
    rw [Outcome.exists_bind_eq_ok fun _ => ⟨_, rfl⟩, exists_bracketItems_iff]
  unfold bracketSegment
  split
  · rename_i blank
    exact iff_of_false nofun fun all => all.1 (List.isEmpty_iff.1 blank)
  · rename_i some
    rw [and_iff_right fun blank => some (List.isEmpty_iff.2 blank)]
    split
    · rename_i dashless
      exact iff_of_true ⟨_, rfl⟩ (Or.inl (itemised_of_dashless (by simpa using dashless)))
    · split
      · rename_i lo d hi _
        split
        · rename_i single
          simp only [Bool.and_eq_true, decide_eq_true_eq] at single
          obtain ⟨rfl, rises⟩ := single
          refine iff_of_true ⟨_, rfl⟩ ?_
          by_cases dashed : lo = dash ∨ hi = dash
          · exact Or.inr ⟨lo, hi, rfl, rises, dashed⟩
          · obtain ⟨begins, ends⟩ := not_or.1 dashed
            exact Or.inl (.range begins ends (UInt8.le_of_lt rises) .nil)
        · rename_i other
          refine mixed.trans (or_iff_left ?_).symm
          rintro ⟨lo', hi', same, rises, -⟩
          cases same
          exact other (by simpa using rises)
      · rename_i shape
        refine mixed.trans (or_iff_left ?_).symm
        rintro ⟨lo, hi, rfl, -⟩
        exact shape lo dash hi rfl

/-- **The bytes of a bracket expression** are those of its items, whichever way it is
compiled. -/
theorem bracketSegment_takes_items {text : String} {content members : Bytes} {ranges : List Item}
    {s : Segment} (done : bracketSegment text content = .ok s)
    (read : bracketItems content content = .ok (members, ranges)) (taken : Bytes) :
    s.Takes taken ↔
      ∃ b, (b ∈ members ∨ ∃ r ∈ ranges, r.contains b = true) ∧ taken = [b] := by
  simp only [bracketSegment_takes done, inClass_of_bracketItems read]

/-! ## Texts with brackets -/

/-- A text without stars whose brackets are balanced and not nested, with the contents of its
bracket expressions. -/
inductive Brackets : (text : Bytes) → (contents : List Bytes) → Prop
  | nil : Brackets [] []
  | byte {b : UInt8} {text : Bytes} {contents : List Bytes}
      (plain : b ∉ [star, openBracket, closeBracket]) (rest : Brackets text contents) :
      Brackets (b :: text) contents
  | bracket {content text : Bytes} {contents : List Bytes}
      (plain : ∀ b ∈ content, b ∉ [star, openBracket, closeBracket])
      (rest : Brackets text contents) :
      Brackets (openBracket :: (content ++ closeBracket :: text)) (content :: contents)

/-- A pattern text with balanced brackets that has no star, or one at one end. -/
inductive Bracketed : (text : Bytes) → (contents : List Bytes) → Prop
  | whole {text : Bytes} {contents : List Bytes} (body : Brackets text contents) :
      Bracketed text contents
  | trailing {text : Bytes} {contents : List Bytes} (body : Brackets text contents) :
      Bracketed (star :: text) contents
  | leading {text : Bytes} {contents : List Bytes} (body : Brackets text contents) :
      Bracketed (text ++ [star]) contents

theorem Brackets.starless {text : Bytes} {contents : List Bytes}
    (brackets : Brackets text contents) : star ∉ text := by
  induction brackets with
  | nil => exact List.not_mem_nil
  | byte plain rest ih =>
      refine List.not_mem_cons_of_ne_of_not_mem (fun same => plain ?_) ih
      exact same ▸ List.mem_cons_self
  | bracket plain rest ih =>
      intro mem
      rcases List.mem_cons.1 mem with same | mem
      · exact absurd same (by decide)
      · rcases List.mem_append.1 mem with inside | mem
        · exact plain star inside List.mem_cons_self
        · rcases List.mem_cons.1 mem with same | later
          · exact absurd same (by decide)
          · exact ih later

theorem Brackets.openBracket_mem {text : Bytes} {contents : List Bytes}
    (brackets : Brackets text contents) (some : contents ≠ []) : openBracket ∈ text := by
  induction brackets with
  | nil => exact absurd rfl some
  | byte plain rest ih => exact List.mem_cons_of_mem _ (ih some)
  | bracket plain rest ih => exact List.mem_cons_self

/-- What stands beside the star of a pattern text. -/
theorem Bracketed.anchorOf {text : Bytes} {contents : List Bytes}
    (written : Bracketed text contents) (some : contents ≠ []) :
    openBracket ∈ text ∧ Brackets (anchorOf text).2 contents := by
  cases written with
  | whole body =>
      have opens := body.openBracket_mem some
      obtain ⟨b, rest, rfl⟩ := List.exists_cons_of_ne_nil (List.ne_nil_of_mem opens)
      have first : b ≠ star := fun same => body.starless (same ▸ List.mem_cons_self)
      have last : (b :: rest).getLast? ≠ .some star := fun last =>
        body.starless (List.mem_of_getLast? last)
      rw [Glob.anchorOf, if_neg first, if_neg last]
      exact ⟨opens, body⟩
  | trailing body =>
      rw [Glob.anchorOf, if_pos rfl]
      exact ⟨List.mem_cons_of_mem star (body.openBracket_mem some), body⟩
  | @leading text _ body =>
      have opens := body.openBracket_mem some
      obtain ⟨b, rest, rfl⟩ := List.exists_cons_of_ne_nil (List.ne_nil_of_mem opens)
      have first : b ≠ star := fun same => body.starless (same ▸ List.mem_cons_self)
      have last : (b :: (rest ++ [star])).getLast? = .some star := by
        rw [← List.cons_append, List.getLast?_concat]
      rw [List.cons_append, Glob.anchorOf, if_neg first, if_pos last, ← List.cons_append,
        List.dropLast_concat]
      exact ⟨List.mem_append_left _ opens, body⟩

/-! ## Compiling -/

/-- The scan of bytes without marks, outside of brackets and within them. -/
theorem scan_run (text : String) {more : Bytes}
    (plain : ∀ b ∈ more, b ∉ [star, openBracket, closeBracket]) (rest run : Bytes)
    (content : Option Bytes) :
    scan text (more ++ rest) run content =
      content.elim (scan text rest (more.reverse ++ run) none) fun read =>
        scan text rest run (some (more.reverse ++ read)) := by
  induction more generalizing run content with
  | nil => cases content <;> rfl
  | cons b more ih =>
      obtain ⟨here, later⟩ := List.forall_mem_cons.1 plain
      have other : b ≠ openBracket ∧ b ≠ closeBracket := by
        constructor <;> rintro rfl <;> exact here (by decide)
      cases content <;>
        rw [List.cons_append, scan, if_neg other.1, if_neg other.2, ih later, List.reverse_cons] <;>
        simp

/-- The scan of an open bracket expression, up to the bracket that closes it. -/
theorem scan_content (text : String) {more : Bytes}
    (plain : ∀ b ∈ more, b ∉ [star, openBracket, closeBracket]) (rest run read : Bytes) :
    scan text (more ++ closeBracket :: rest) run (some read) =
      bracketSegment text (read.reverse ++ more) >>= fun segment =>
        scan text rest [] none >>= fun segments => .ok (flushRun run (segment :: segments)) := by
  rw [scan_run text plain, Option.elim_some, scan, if_neg (by decide), if_pos rfl,
    List.reverse_append, List.reverse_reverse]

/-- **A text with balanced brackets is scanned** if each of its bracket expressions is read. -/
theorem exists_scan_iff (text : String) {bytes : Bytes} {contents : List Bytes}
    (brackets : Brackets bytes contents) (run : Bytes) :
    (∃ segments, scan text bytes run none = .ok segments) ↔
      ∀ content ∈ contents, ∃ s, bracketSegment text content = .ok s := by
  induction brackets generalizing run with
  | nil => exact iff_of_true ⟨_, rfl⟩ nofun
  | @byte b bytes contents plain rest ih =>
      have other : b ≠ openBracket ∧ b ≠ closeBracket := by
        constructor <;> rintro rfl <;> exact plain (by decide)
      rw [scan, if_neg other.1, if_neg other.2, ih]
  | @bracket content bytes contents plain rest ih =>
      rw [scan, if_pos rfl, scan_content text plain, List.reverse_nil, List.nil_append,
        List.forall_mem_cons, ← ih []]
      simp only [Outcome.bind_eq_ok]
      constructor
      · rintro ⟨_, s, read, segments, scanned, -⟩
        exact ⟨⟨s, read⟩, segments, scanned⟩
      · rintro ⟨⟨s, read⟩, segments, scanned⟩
        exact ⟨_, s, read, segments, scanned, rfl⟩

/-- A pattern text with balanced brackets has a shape if each of its bracket expressions is
read. -/
theorem exists_shapeOf_iff {text : String} {contents : List Bytes}
    (written : Bracketed (Text.utf8 text) contents) (some : contents ≠ []) :
    (∃ shape, shapeOf text = .ok shape) ↔
      ∀ content ∈ contents, ∃ s, bracketSegment text content = .ok s := by
  obtain ⟨opens, body⟩ := written.anchorOf some
  have starless : (Glob.anchorOf (Text.utf8 text)).2.contains star = false := by
    simpa using body.starless
  have bracket : ((Text.utf8 text).contains openBracket ||
      (Text.utf8 text).contains closeBracket) = true := by
    rw [List.contains_iff_mem.2 opens, Bool.true_or]
  rw [shapeOf, if_pos bracket, ← exists_scan_iff text body [], bracketPattern]
  simp only [starless, Bool.false_eq_true, if_false]
  cases scan text (Glob.anchorOf (Text.utf8 text)).2 [] none with
  | error cause =>
      exact iff_of_false Outcome.not_exists_error_eq_ok Outcome.not_exists_error_eq_ok
  | ok segments => exact iff_of_true ⟨_, rfl⟩ ⟨_, rfl⟩

/-- **Which patterns with balanced brackets compile**: those whose bracket expressions hold
sequences of items. A content that begins or ends with a dash is let through only if it is a
rising range of three bytes. A sequence of items is read from the left whichever way it is
compiled, and the bracket expression takes the bytes of the items. -/
theorem compile_iff_of_bracketed (pattern : String) (caseSensitive : Bool) {weight : Nat}
    {contents : List Bytes} (owner : TypeId) (inRange : 1 ≤ weight ∧ weight ≤ 100)
    (written : Bracketed
      (Text.utf8 (if caseSensitive then pattern else Text.lowercase pattern)) contents)
    (some : contents ≠ []) :
    ((∃ g, compile pattern caseSensitive weight owner = .ok g) ↔
      ∀ content ∈ contents, content ≠ [] ∧ (Itemised content ∨ DashRange content)) ∧
    (∀ content ∈ contents, content.head? = .some dash ∨ content.getLast? = .some dash →
      (∃ g, compile pattern caseSensitive weight owner = .ok g) → DashRange content) ∧
    ∀ text content, content ≠ [] → Itemised content →
      ∃ s members ranges, bracketSegment text content = .ok s ∧
        bracketItems content content = .ok (members, ranges) ∧
        ∀ taken, s.Takes taken ↔
          ∃ b, (b ∈ members ∨ ∃ r ∈ ranges, r.contains b = true) ∧ taken = [b] := by
  have compiles : (∃ g, compile pattern caseSensitive weight owner = .ok g) ↔
      ∀ content ∈ contents, content ≠ [] ∧ (Itemised content ∨ DashRange content) := by
    have there : pattern.isEmpty = false := by
      obtain ⟨opens, -⟩ := written.anchorOf some
      rw [← Bool.not_eq_true, String.isEmpty_iff]
      rintro rfl
      cases caseSensitive <;> cases opens
    simp only [← exists_bracketSegment_iff
      (if caseSensitive then pattern else Text.lowercase pattern),
      ← exists_shapeOf_iff written some, compile_eq_ok, there]
    constructor
    · rintro ⟨g, -, -, shape, read, -⟩
      exact ⟨shape, read⟩
    · rintro ⟨shape, read⟩
      exact ⟨_, inRange, trivial, shape, read, rfl⟩
  refine ⟨compiles, fun content mem dashed done => ?_, fun text content given itemised => ?_⟩
  · refine (compiles.1 done content mem).2.resolve_left fun itemised => ?_
    exact dashed.elim itemised.head? itemised.getLast?
  · obtain ⟨s, done⟩ := (exists_bracketSegment_iff text).2 ⟨given, Or.inl itemised⟩
    obtain ⟨⟨members, ranges⟩, read⟩ := (exists_bracketItems_iff content).2 itemised
    exact ⟨s, members, ranges, done, read, bracketSegment_takes_items done read⟩

/-- Two classes behind any beginning: one of a range and a letter, one of a range from the
dash on. -/
theorem manualPages_compiles :
    Bracketed (Text.utf8 (Text.lowercase "*.[1-9N][--a]")) [Text.utf8 "1-9n", Text.utf8 "--a"] ∧
    ∃ g, compile "*.[1-9N][--a]" false 50 ⟨7⟩ = .ok g := by
  have text : Text.utf8 (Text.lowercase "*.[1-9N][--a]") =
      star :: 0x2E :: openBracket :: (Text.utf8 "1-9n" ++ closeBracket ::
        openBracket :: (Text.utf8 "--a" ++ [closeBracket])) := by
    decide +kernel
  have written : Bracketed (Text.utf8 (Text.lowercase "*.[1-9N][--a]"))
      [Text.utf8 "1-9n", Text.utf8 "--a"] := by
    rw [text]
    refine .trailing (.byte (by decide) (.bracket ?_ (.bracket ?_ .nil))) <;> decide +kernel
  have items : Itemised (Text.utf8 "1-9n") := by decide +kernel
  have range : DashRange (Text.utf8 "--a") :=
    ⟨dash, 0x61, by decide +kernel, by decide, Or.inl rfl⟩
  refine ⟨written, (compile_iff_of_bracketed "*.[1-9N][--a]" false ⟨7⟩
    ⟨by decide, by decide⟩ written nofun).1.2 ?_⟩
  simp only [List.forall_mem_cons, List.not_mem_nil, false_implies, implies_true, and_true]
  exact ⟨⟨by decide +kernel, Or.inl items⟩, by decide +kernel, Or.inr range⟩

/-- **A dash at an end is overlooked** where the content is a rising range of three bytes: it
compiles, though it is no sequence of items. -/
theorem dash_overlooked :
    ¬ ∀ (pattern : String) (caseSensitive : Bool) (weight : Nat) (owner : TypeId)
      (contents : List Bytes), 1 ≤ weight ∧ weight ≤ 100 →
      Bracketed (Text.utf8 (if caseSensitive then pattern else Text.lowercase pattern)) contents →
      contents ≠ [] →
      ((∃ g, compile pattern caseSensitive weight owner = .ok g) ↔
        ∀ content ∈ contents, content ≠ [] ∧ Itemised content) := by
  intro claimed
  have text : Text.utf8 "[--a]" = openBracket :: (Text.utf8 "--a" ++ [closeBracket]) := by
    decide +kernel
  have written : Bracketed (Text.utf8 "[--a]") [Text.utf8 "--a"] := by
    rw [text]
    refine .whole (.bracket ?_ .nil)
    decide +kernel
  have compiles : ∃ g, compile "[--a]" true 50 ⟨7⟩ = .ok g := by decide +kernel
  have itemised := ((claimed "[--a]" true 50 ⟨7⟩ _ ⟨by decide, by decide⟩ written nofun).1
    compiles _ List.mem_cons_self).2
  revert itemised
  decide +kernel

end MediaSniff.Glob
