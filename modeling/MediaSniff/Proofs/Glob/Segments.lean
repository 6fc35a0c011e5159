/-
# MediaSniff.Proofs.Glob.Segments — the bytes that segments take

Segments take bytes one after another (`Takes`), as many as they are wide together. A
segmented pattern accepts a subject that they take as a whole, or whose beginning or end
they take (`Pattern.accepts_iff`).

The same test can be made on a window of the subject by position, where each access may
find nothing (`Pattern.acceptsAt?`). The window is as wide as the segments together, and so
every access finds its byte: the test by position has an answer, and it is the same
(`Pattern.acceptsAt?_eq`).
-/
import MediaSniff.Proofs.Glob.Width

set_option autoImplicit false

namespace MediaSniff.Glob

/-! ## What segments take -/

/-- The bytes that a segment takes: its run, or one byte that its items contain. -/
def Segment.Takes : Segment → Bytes → Prop
  | .literal run, taken => taken = run
  | .one item, taken => ∃ b, item.contains b = true ∧ taken = [b]
  | .anyOf items, taken => ∃ b, items.any (·.contains b) = true ∧ taken = [b]

/-- The bytes that segments take one after another. -/
inductive Takes : List Segment → Bytes → Prop
  | nil : Takes [] []
  | cons {s : Segment} {segments : List Segment} {first others : Bytes} (here : s.Takes first)
      (later : Takes segments others) : Takes (s :: segments) (first ++ others)

theorem takes_nil {taken : Bytes} : Takes [] taken ↔ taken = [] := by
  constructor
  · intro took
    cases took
    rfl
  · rintro rfl
    exact .nil

theorem takes_cons {s : Segment} {segments : List Segment} {taken : Bytes} :
    Takes (s :: segments) taken ↔
      ∃ first others, s.Takes first ∧ Takes segments others ∧ taken = first ++ others := by
  constructor
  · intro took
    cases took with
    | cons here later => exact ⟨_, _, here, later, rfl⟩
  · rintro ⟨first, others, here, later, rfl⟩
    exact .cons here later

theorem Segment.Takes.length {s : Segment} {taken : Bytes} (took : s.Takes taken) :
    taken.length = s.width := by
  cases s with
  | literal run =>
      obtain rfl : taken = run := took
      rfl
  | one item =>
      obtain ⟨b, -, rfl⟩ := took
      rfl
  | anyOf items =>
      obtain ⟨b, -, rfl⟩ := took
      rfl

theorem Takes.length {segments : List Segment} {taken : Bytes} (took : Takes segments taken) :
    taken.length = Pattern.segmentsWidth segments := by
  induction took with
  | nil => rfl
  | cons here later ih => rw [List.length_append, here.length, ih, Pattern.segmentsWidth]

theorem Segment.consume?_eq_some {s : Segment} {subject rest : Bytes} :
    s.consume? subject = some rest ↔ ∃ taken, s.Takes taken ∧ subject = taken ++ rest := by
  cases s with
  | literal run => simp [Segment.consume?, Segment.Takes, dropRun?_eq_some]
  | one item =>
      cases subject with
      | nil => simp [Segment.consume?, Segment.Takes]
      | cons b subject => simp [Segment.consume?, Segment.Takes]
  | anyOf items =>
      cases subject with
      | nil => simp [Segment.consume?, Segment.Takes]
      | cons b subject => simp [Segment.consume?, Segment.Takes]

/-- Segments accept a subject that begins with bytes that they take. -/
theorem segmentsAccept_iff {segments : List Segment} {subject : Bytes} :
    Pattern.segmentsAccept segments subject = true ↔
      ∃ taken rest, Takes segments taken ∧ subject = taken ++ rest := by
  induction segments generalizing subject with
  | nil =>
      simp only [Pattern.segmentsAccept, takes_nil, true_iff]
      exact ⟨[], subject, rfl, rfl⟩
  | cons s segments ih =>
      rw [Pattern.segmentsAccept]
      constructor
      · intro accepted
        cases took : s.consume? subject with
        | none =>
            rw [took] at accepted
            cases accepted
        | some later =>
            rw [took] at accepted
            obtain ⟨others, rest, tookOthers, rfl⟩ := ih.1 accepted
            obtain ⟨first, tookFirst, rfl⟩ := Segment.consume?_eq_some.1 took
            exact ⟨first ++ others, rest, .cons tookFirst tookOthers,
              (List.append_assoc first others rest).symm⟩
      · rintro ⟨taken, rest, took, rfl⟩
        obtain ⟨first, others, tookFirst, tookOthers, rfl⟩ := takes_cons.1 took
        rw [List.append_assoc, Segment.consume?_eq_some.2 ⟨first, tookFirst, rfl⟩]
        exact ih.2 ⟨others, rest, tookOthers, rfl⟩

/-- **What a segmented pattern accepts**, by its anchor. -/
theorem Pattern.accepts_iff {p : Pattern} {subject : Bytes} :
    p.accepts subject = true ↔
      match p.anchor with
      | .whole => Takes p.segments subject
      | .leading => ∃ taken any, Takes p.segments taken ∧ subject = taken ++ any
      | .trailing => ∃ any taken, Takes p.segments taken ∧ subject = any ++ taken := by
  obtain ⟨anchor, segments⟩ := p
  cases anchor with
  | whole =>
      simp only [Pattern.accepts, Pattern.width, Bool.and_eq_true, beq_iff_eq, segmentsAccept_iff]
      constructor
      · rintro ⟨long, taken, rest, took, rfl⟩
        have blank : rest = [] := by
          rw [List.length_append, took.length] at long
          exact List.eq_nil_of_length_eq_zero (by omega)
        rwa [blank, List.append_nil]
      · intro took
        exact ⟨took.length, subject, [], took, (List.append_nil subject).symm⟩
  | leading => exact segmentsAccept_iff
  | trailing =>
      simp only [Pattern.accepts, Bool.and_eq_true, decide_eq_true_eq]
      simp only [Pattern.width, segmentsAccept_iff]
      constructor
      · rintro ⟨long, taken, rest, took, ending⟩
        have blank : rest = [] := by
          have sizes := congrArg List.length ending
          rw [List.length_drop, List.length_append, took.length] at sizes
          exact List.eq_nil_of_length_eq_zero (by omega)
        rw [blank, List.append_nil] at ending
        refine ⟨subject.take (subject.length - segmentsWidth segments), taken, took, ?_⟩
        rw [← ending, List.take_append_drop]
      · rintro ⟨any, taken, took, rfl⟩
        have start : (any ++ taken).length - segmentsWidth segments = any.length := by
          rw [List.length_append, took.length]
          omega
        refine ⟨?_, taken, [], took, ?_⟩
        · rw [List.length_append, took.length]
          omega
        · rw [start, List.drop_left, List.append_nil]

/-! ## By position -/

/-- So many bytes of a subject from a position on; none unless they are all there. -/
def slice? (subject : Bytes) (start length : Nat) : Option Bytes :=
  if start + length ≤ subject.length then some ((subject.drop start).take length) else none

/-- Try segments on a window from a position on. There is no answer if a byte is asked for
that the window does not have. -/
def Pattern.fitAt? (window : Bytes) : (position : Nat) → List Segment → Option Bool
  | _, [] => some true
  | i, .literal run :: segments => do
      let part ← slice? window i run.length
      if part = run then fitAt? window (i + run.length) segments else some false
  | i, .one item :: segments => do
      let b ← window[i]?
      if item.contains b then fitAt? window (i + 1) segments else some false
  | i, .anyOf items :: segments => do
      let b ← window[i]?
      if items.any (·.contains b) then fitAt? window (i + 1) segments else some false

/-- Lay a pattern against its window of a subject and try the segments by position. -/
def Pattern.acceptsAt? (p : Pattern) (subject : Bytes) : Option Bool :=
  match p.anchor with
  | .whole => if subject.length = p.width then fitAt? subject 0 p.segments else some false
  | .leading =>
      if p.width ≤ subject.length then do
        let window ← slice? subject 0 p.width
        fitAt? window 0 p.segments
      else some false
  | .trailing =>
      if p.width ≤ subject.length then do
        let window ← slice? subject (subject.length - p.width) p.width
        fitAt? window 0 p.segments
      else some false

/-- **No access lies outside.** As long as the window has room for the segments that are
left, each of them finds its bytes. -/
theorem Pattern.fitAt?_eq {window : Bytes} {i : Nat} {segments : List Segment}
    (room : i + segmentsWidth segments ≤ window.length) :
    fitAt? window i segments = some (segmentsAccept segments (window.drop i)) := by
  induction segments generalizing i with
  | nil => rfl
  | cons s segments ih =>
      rw [segmentsWidth] at room
      cases s with
      | literal run =>
          have room' : i + run.length + segmentsWidth segments ≤ window.length := by
            simpa only [Segment.width, Nat.add_assoc] using room
          rw [fitAt?, slice?, if_pos (Nat.le_of_add_right_le room'), segmentsAccept,
            Segment.consume?]
          show (if _ then _ else _) = _
          split
          · rename_i same
            have start : window.drop i = run ++ window.drop (i + run.length) := by
              rw [← List.drop_drop]
              conv_lhs => rw [← List.take_append_drop run.length (window.drop i), same]
            rw [ih room', dropRun?_eq_some.2 start]
          · rename_i differ
            cases taken : dropRun? run (window.drop i) with
            | none => rfl
            | some rest =>
                rw [dropRun?_eq_some.1 taken, List.take_left] at differ
                exact absurd rfl differ
      | one item =>
          have room' : i + 1 + segmentsWidth segments ≤ window.length := by
            simpa only [Segment.width, Nat.add_assoc] using room
          have inside : i < window.length := Nat.le_of_add_right_le room'
          rw [fitAt?, List.getElem?_eq_getElem inside, List.drop_eq_getElem_cons inside,
            segmentsAccept, Segment.consume?]
          show (if _ then _ else _) = _
          split
          · rw [ih room']
          · rfl
      | anyOf items =>
          have room' : i + 1 + segmentsWidth segments ≤ window.length := by
            simpa only [Segment.width, Nat.add_assoc] using room
          have inside : i < window.length := Nat.le_of_add_right_le room'
          rw [fitAt?, List.getElem?_eq_getElem inside, List.drop_eq_getElem_cons inside,
            segmentsAccept, Segment.consume?]
          show (if _ then _ else _) = _
          split
          · rw [ih room']
          · rfl

/-- Segments look at no more than their width of a subject. -/
theorem segmentsAccept_take {segments : List Segment} {subject : Bytes} :
    Pattern.segmentsAccept segments (subject.take (Pattern.segmentsWidth segments)) =
      Pattern.segmentsAccept segments subject := by
  rw [Bool.eq_iff_iff, segmentsAccept_iff, segmentsAccept_iff]
  constructor
  · rintro ⟨taken, rest, took, start⟩
    refine ⟨taken, rest ++ subject.drop (Pattern.segmentsWidth segments), took, ?_⟩
    rw [← List.append_assoc, ← start, List.take_append_drop]
  · rintro ⟨taken, rest, took, rfl⟩
    refine ⟨taken, [], took, ?_⟩
    rw [← took.length, List.take_left, List.append_nil]

/-- **The test by position has an answer, and it is the same.** -/
theorem Pattern.acceptsAt?_eq (p : Pattern) (subject : Bytes) :
    p.acceptsAt? subject = some (p.accepts subject) := by
  have wide : p.width = segmentsWidth p.segments := rfl
  rw [acceptsAt?, accepts]
  cases p.anchor with
  | whole =>
      dsimp only
      split
      · rename_i long
        rw [fitAt?_eq (by omega), List.drop_zero, long, beq_self_eq_true, Bool.true_and]
      · rename_i differ
        rw [beq_eq_false_iff_ne.2 differ, Bool.false_and]
  | leading =>
      dsimp only
      split
      · rename_i long
        have window : slice? subject 0 p.width = some (subject.take p.width) := by
          rw [slice?, if_pos (by omega), List.drop_zero]
        rw [window]
        show fitAt? (subject.take p.width) 0 p.segments = _
        rw [fitAt?_eq (by rw [List.length_take]; omega), List.drop_zero, wide, segmentsAccept_take]
      · rename_i short
        cases accepted : segmentsAccept p.segments subject with
        | false => rfl
        | true => exact absurd (width_le_of_segmentsAccept accepted) short
  | trailing =>
      dsimp only
      split
      · rename_i long
        have window : slice? subject (subject.length - p.width) p.width =
            some (subject.drop (subject.length - p.width)) := by
          rw [slice?, if_pos (by omega), List.take_of_length_le (by rw [List.length_drop]; omega)]
        rw [window]
        show fitAt? (subject.drop (subject.length - p.width)) 0 p.segments = _
        rw [fitAt?_eq (by rw [List.length_drop]; omega), List.drop_zero, decide_eq_true long,
          Bool.true_and]
      · rename_i short
        rw [decide_eq_false short, Bool.false_and]

end MediaSniff.Glob
