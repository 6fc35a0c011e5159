/-
# MediaSniff.Proofs.Glob.Width — a rule asks for something

A shape accepts no name shorter than what it pins down (`Shape.fixedLength_le`). Every
compiled rule pins down at least one byte (`compile_fixedLength_pos`): a literal shape is
what is left of a text when its star is taken away, which is never nothing, and a bracket
expression takes one byte. So the empty name is accepted by no compiled rule
(`acceptsName_empty`), and speaks for no type.
-/
import MediaSniff.Glob.Compile
import MediaSniff.Proofs.Glob.Scan
import MediaSniff.Proofs.Outcome
import MediaSniff.Proofs.Text.Lowercase

set_option autoImplicit false

namespace MediaSniff.Glob

/-! ## What a shape takes of a name -/

theorem dropRun?_eq_some {run subject rest : Bytes} :
    dropRun? run subject = some rest ↔ subject = run ++ rest := by
  induction run generalizing subject with
  | nil => exact Option.some_inj
  | cons r run ih =>
      cases subject with
      | nil => exact iff_of_false (by simp [dropRun?]) (by simp)
      | cons b subject =>
          rw [dropRun?, List.cons_append, List.cons.injEq]
          by_cases same : r = b
          · rw [if_pos same, ih]
            exact (and_iff_right same.symm).symm
          · rw [if_neg same]
            exact iff_of_false nofun fun both => same both.1.symm

/-- A segment takes as many bytes as it is wide. -/
theorem Segment.consume?_length {s : Segment} {subject rest : Bytes}
    (taken : s.consume? subject = some rest) : s.width + rest.length = subject.length := by
  cases s with
  | literal run =>
      rw [dropRun?_eq_some.1 taken, List.length_append]
      rfl
  | one item =>
      cases subject with
      | nil => cases taken
      | cons b subject =>
          rw [Segment.consume?] at taken
          split at taken
          · cases taken
            exact Nat.add_comm 1 _
          · cases taken
  | anyOf items =>
      cases subject with
      | nil => cases taken
      | cons b subject =>
          rw [Segment.consume?] at taken
          split at taken
          · cases taken
            exact Nat.add_comm 1 _
          · cases taken

theorem Pattern.width_le_of_segmentsAccept {segments : List Segment} {subject : Bytes}
    (accepted : segmentsAccept segments subject = true) :
    segmentsWidth segments ≤ subject.length := by
  induction segments generalizing subject with
  | nil => exact Nat.zero_le _
  | cons s segments ih =>
      rw [segmentsAccept] at accepted
      cases taken : s.consume? subject with
      | none =>
          rw [taken] at accepted
          cases accepted
      | some rest =>
          rw [taken] at accepted
          rw [segmentsWidth, ← Segment.consume?_length taken]
          exact Nat.add_le_add_left (ih accepted) _

/-- **A shape accepts no name shorter than what it pins down.** -/
theorem Shape.fixedLength_le {shape : Shape} {subject : Bytes}
    (accepted : shape.accepts subject = true) : shape.fixedLength ≤ subject.length := by
  cases shape with
  | exact text =>
      rw [Shape.accepts, beq_iff_eq] at accepted
      rw [accepted]
      exact Nat.le_refl _
  | leading text =>
      rw [Shape.accepts, List.isPrefixOf_iff_prefix] at accepted
      exact accepted.length_le
  | trailing text =>
      rw [Shape.accepts, List.isSuffixOf_iff_suffix] at accepted
      exact accepted.length_le
  | pattern p =>
      obtain ⟨anchor, segments⟩ := p
      cases anchor with
      | whole =>
          simp only [Shape.accepts, Pattern.accepts, Bool.and_eq_true, beq_iff_eq] at accepted
          exact accepted.1.ge
      | leading => exact Pattern.width_le_of_segmentsAccept accepted
      | trailing =>
          simp only [Shape.accepts, Pattern.accepts, Bool.and_eq_true, decide_eq_true_eq]
            at accepted
          exact accepted.1

/-! ## What compiling leaves of a pattern -/

theorem literalShape_fixedLength_pos {text : String} {shape : Shape} (written : text ≠ "")
    (done : literalShape text = .ok shape) : 0 < shape.fixedLength := by
  have bytes : Text.utf8 text ≠ [] := fun blank => written (Text.utf8_eq_nil_iff.1 blank)
  rw [literalShape] at done
  cases spelled : Text.utf8 text with
  | nil => exact absurd spelled bytes
  | cons b rest =>
      simp only [spelled] at done
      split at done
      · cases done
        exact Nat.succ_pos _
      · split at done
        · rename_i ending
          cases done
          simp only [Bool.and_eq_true, Bool.not_eq_true', List.isEmpty_eq_false_iff] at ending
          exact List.length_pos_iff.2 ending.1.2
        · split at done
          · rename_i beginning
            cases done
            -- The star is the last byte but not the first, so there is a byte before it.
            show 0 < (b :: rest).dropLast.length
            cases rest with
            | nil => simp at beginning
            | cons b' rest => exact Nat.succ_pos _
          · cases done

theorem width_flushRun (run : Bytes) (segments : List Segment) :
    Pattern.segmentsWidth (flushRun run segments) =
      run.length + Pattern.segmentsWidth segments := by
  unfold flushRun
  split
  · rename_i blank
    rw [List.isEmpty_iff.1 blank, List.length_nil, Nat.zero_add]
  · rw [Pattern.segmentsWidth, Segment.width, List.length_reverse]

/-- A bracket expression takes one byte. -/
theorem bracketSegment_width {text : String} {content : Bytes} {s : Segment}
    (done : bracketSegment text content = .ok s) : s.width = 1 := by
  rw [bracketSegment] at done
  split at done
  · cases done
  · split at done
    · cases done
      rfl
    · split at done
      · split at done
        · cases done
          rfl
        · obtain ⟨_, -, done⟩ := Outcome.bind_eq_ok.1 done
          cases done
          rfl
      · obtain ⟨_, -, done⟩ := Outcome.bind_eq_ok.1 done
        cases done
        rfl

/-- What is read, and what has been read but not been put down, ends up in the segments.
An open bracket expression takes a byte even if nothing of it has been read. -/
theorem scan_width_pos {text : String} {bytes run : Bytes} {content : Option Bytes}
    {segments : List Segment} (done : scan text bytes run content = .ok segments)
    (left : bytes ≠ [] ∨ run ≠ [] ∨ content ≠ none) : 0 < Pattern.segmentsWidth segments := by
  induction bytes generalizing run content segments with
  | nil =>
      cases content with
      | some content => cases done
      | none =>
          cases done
          rw [width_flushRun]
          have read : run ≠ [] := by simpa using left
          exact Nat.add_pos_left (List.length_pos_iff.2 read) _
  | cons b rest ih =>
      cases content with
      | none =>
          rw [scan] at done
          split at done
          · exact ih done (Or.inr (Or.inr nofun))
          · split at done
            · cases done
            · exact ih done (Or.inr (Or.inl (List.cons_ne_nil b run)))
      | some content =>
          rw [scan] at done
          split at done
          · cases done
          · split at done
            · obtain ⟨segment, bracket, done⟩ := Outcome.bind_eq_ok.1 done
              obtain ⟨later, -, done⟩ := Outcome.bind_eq_ok.1 done
              cases done
              rw [width_flushRun, Pattern.segmentsWidth, bracketSegment_width bracket]
              omega
            · exact ih done (Or.inr (Or.inr nofun))

/-- A star is no bracket, so something is left when it is taken away. -/
theorem anchorOf_ne_nil {bytes : Bytes} (bracket : openBracket ∈ bytes ∨ closeBracket ∈ bytes) :
    (anchorOf bytes).2 ≠ [] := by
  cases bytes with
  | nil => simp at bracket
  | cons b rest =>
      rw [anchorOf]
      split
      · rename_i first
        intro gone
        obtain rfl : rest = [] := gone
        subst first
        revert bracket
        decide
      · rename_i other
        split
        · rename_i last
          intro gone
          cases rest with
          | nil => exact other (Option.some_inj.1 last)
          | cons b' rest => simp at gone
        · exact List.cons_ne_nil b rest

theorem scan_of_bracketPattern {text : String} {p : Pattern}
    (read : bracketPattern text = .ok p) :
    scan text (anchorOf (Text.utf8 text)).2 [] none = .ok p.segments := by
  rw [bracketPattern] at read
  dsimp only at read
  split at read
  · cases read
  · obtain ⟨segments, scanned, read⟩ := Outcome.bind_eq_ok.1 read
    cases read
    exact scanned

theorem shapeOf_fixedLength_pos {text : String} {shape : Shape} (written : text ≠ "")
    (done : shapeOf text = .ok shape) : 0 < shape.fixedLength := by
  rw [shapeOf] at done
  split at done
  · rename_i bracket
    simp only [Bool.or_eq_true, List.contains_iff_mem] at bracket
    cases read : bracketPattern text with
    | error cause =>
        rw [read] at done
        cases done
    | ok p =>
        rw [read] at done
        cases done
        exact scan_width_pos (scan_of_bracketPattern read) (Or.inl (anchorOf_ne_nil bracket))
  · exact literalShape_fixedLength_pos written done

/-- **A filename rule compiles** if its weight is in the range and its pattern is there and
can be read. -/
theorem compile_eq_ok {pattern : String} {caseSensitive : Bool} {weight : Nat} {owner : TypeId}
    {g : Glob} :
    compile pattern caseSensitive weight owner = .ok g ↔
      (1 ≤ weight ∧ weight ≤ 100) ∧ pattern.isEmpty = false ∧
        ∃ shape, shapeOf (if caseSensitive then pattern else Text.lowercase pattern) = .ok shape ∧
          g = { shape, caseSensitive, weight, owner } := by
  rw [compile]
  by_cases outside : weight < 1 ∨ 100 < weight
  · rw [if_pos (by simpa using outside)]
    exact iff_of_false nofun (by omega)
  · rw [if_neg (by simpa using outside)]
    have inside : 1 ≤ weight ∧ weight ≤ 100 := by omega
    cases pattern.isEmpty with
    | true => exact iff_of_false nofun nofun
    | false =>
        constructor
        · intro done
          obtain ⟨shape, read, done⟩ := Outcome.bind_eq_ok.1 done
          cases done
          exact ⟨inside, rfl, shape, read, rfl⟩
        · rintro ⟨-, -, shape, read, rfl⟩
          exact Outcome.bind_eq_ok.2 ⟨shape, read, rfl⟩

/-- **A compiled rule asks for something.** -/
theorem compile_fixedLength_pos {pattern : String} {caseSensitive : Bool} {weight : Nat}
    {owner : TypeId} {g : Glob} (compiled : compile pattern caseSensitive weight owner = .ok g) :
    0 < g.fixedLength := by
  obtain ⟨-, written, shape, done, rfl⟩ := compile_eq_ok.1 compiled
  have pattern_ne : pattern ≠ "" := by
    rintro rfl
    cases written
  refine shapeOf_fixedLength_pos ?_ done
  split
  · exact pattern_ne
  · exact fun blank => pattern_ne (Text.lowercase_eq_empty_iff.1 blank)

/-- No compiled rule accepts the empty name. -/
theorem acceptsName_empty {pattern : String} {caseSensitive : Bool} {weight : Nat}
    {owner : TypeId} {g : Glob} (compiled : compile pattern caseSensitive weight owner = .ok g) :
    g.acceptsName "" = false := by
  cases accepted : g.acceptsName "" with
  | false => rfl
  | true =>
      have wide := compile_fixedLength_pos compiled
      have short : g.fixedLength ≤ 0 := by
        rw [acceptsName, Text.lowercase_eq_empty_iff.2 rfl, ite_self, accepts] at accepted
        exact Shape.fixedLength_le accepted
      omega

end MediaSniff.Glob
