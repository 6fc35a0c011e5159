/-
# MediaSniff.Proofs.Glob.Reading — patterns that read alike

What compiling makes of the text of a pattern is made of its reading (`reading`): the end that
its star stands for, and the pieces of the rest, bytes and bracket expressions. Of a bracket
expression the reading has the bytes that stand alone and the ranges, both in the order in
which they are written, and nothing of how the ones stand among the others.

A shape is made of the reading of its text (`shapeOf_eq_ofReading`), and the reading can be told
from the shape again (`Shape.reading_ofReading`). Texts without brackets read alike only if they
are one text (`reading_eq_iff_of_bracketless`). A rule is told by the reading of its pattern, in
the case that it is tested in, its treatment of case, its weight and its type
(`compile_eq_ofKey`). So two rules are of one kind exactly if their patterns read alike, in the
case that each is tested in, and they treat case alike (`kind_ofKey_eq_iff`).
-/
import MediaSniff.Proofs.Glob.Brackets
import MediaSniff.Proofs.Glob.Width

set_option autoImplicit false

namespace MediaSniff.Glob

/-- A piece of a pattern text: a byte that stands for itself, or a bracket expression, of which
the bytes that stand alone and the ends of the ranges are known. -/
inductive Piece where
  | byte (b : UInt8)
  | bracket (alone : Bytes) (ranges : List (UInt8 × UInt8))
  deriving DecidableEq, Repr

/-! ## Bracket expressions -/

/-- The bytes of a content that stand alone, and the ends of its ranges. -/
def parts : (content : Bytes) → Bytes × List (UInt8 × UInt8)
  | [] => ([], [])
  | b :: d :: hi :: rest =>
      if d = dash then ((parts rest).1, (b, hi) :: (parts rest).2)
      else (b :: (parts (d :: hi :: rest)).1, (parts (d :: hi :: rest)).2)
  | b :: rest => (b :: (parts rest).1, (parts rest).2)

/-- The item of a range. -/
def rangeItem (ends : UInt8 × UInt8) : Item := .range ends.1 ends.2

/-- The segment of a bracket expression by its parts. -/
def bracketOf : (alone : Bytes) → (ranges : List (UInt8 × UInt8)) → Segment
  | alone, [] => .one (.set alone)
  | [], [r] => if r.1 < r.2 then .one (rangeItem r) else .anyOf [rangeItem r]
  | [], r :: r' :: ranges => .anyOf ((r :: r' :: ranges).map rangeItem)
  | b :: alone, r :: ranges => .anyOf (.set (b :: alone) :: (r :: ranges).map rangeItem)

/-- The bytes that an item lists. -/
def Item.alone : Item → Bytes
  | .set members => members
  | .range _ _ => []

/-- The ends of an item that is a range. -/
def Item.ends? : Item → Option (UInt8 × UInt8)
  | .set _ => none
  | .range lo hi => some (lo, hi)

/-- The pieces of a segment. -/
def Segment.pieces : Segment → List Piece
  | .literal run => run.map .byte
  | .one item => [.bracket item.alone item.ends?.toList]
  | .anyOf items => [.bracket (items.flatMap Item.alone) (items.filterMap Item.ends?)]

theorem alone_rangeItems (ranges : List (UInt8 × UInt8)) :
    (ranges.map rangeItem).flatMap Item.alone = [] := by
  induction ranges with
  | nil => rfl
  | cons r ranges ih => exact ih

theorem ends?_rangeItems (ranges : List (UInt8 × UInt8)) :
    (ranges.map rangeItem).filterMap Item.ends? = ranges := by
  rw [List.filterMap_map]
  exact List.filterMap_some

/-- The parts of a bracket expression can be told from its segment. -/
theorem pieces_bracketOf (alone : Bytes) (ranges : List (UInt8 × UInt8)) :
    (bracketOf alone ranges).pieces = [.bracket alone ranges] := by
  match alone, ranges with
  | alone, [] => rfl
  | [], [r] =>
      rw [bracketOf]
      split <;> rfl
  | [], r :: r' :: ranges =>
      rw [bracketOf, Segment.pieces, alone_rangeItems, ends?_rangeItems]
  | b :: alone, r :: ranges =>
      rw [bracketOf, Segment.pieces, List.flatMap_cons, alone_rangeItems, List.append_nil,
        List.filterMap_cons_none rfl, ends?_rangeItems]
      rfl

theorem parts_cons {b : UInt8} {rest : Bytes} (alone : rest.head? ≠ some dash) :
    parts (b :: rest) = (b :: (parts rest).1, (parts rest).2) := by
  match rest with
  | [] => rfl
  | [d] => rfl
  | d :: hi :: rest =>
      have other : d ≠ dash := by simpa using alone
      rw [parts, if_neg other]

theorem parts_range (lo hi : UInt8) (rest : Bytes) :
    parts (lo :: dash :: hi :: rest) = ((parts rest).1, (lo, hi) :: (parts rest).2) := by
  rw [parts, if_pos rfl]

theorem parts_of_dashless {content : Bytes} (dashless : dash ∉ content) :
    parts content = (content, []) := by
  induction content with
  | nil => rfl
  | cons b rest ih =>
      have dashless' : dash ∉ rest := fun mem => dashless (List.mem_cons_of_mem b mem)
      rw [parts_cons fun first => dashless' (List.mem_of_mem_head? first), ih dashless']

/-- A sequence of items has ranges if it has dashes. -/
theorem Itemised.dash_notMem {content : Bytes} (itemised : Itemised content)
    (rangeless : (parts content).2 = []) : dash ∉ content := by
  induction itemised with
  | nil => exact List.not_mem_nil
  | single solid later ih =>
      rw [parts_cons later.head?] at rangeless
      exact List.not_mem_cons_of_ne_of_not_mem solid.symm (ih rangeless)
  | range begins ends rises later ih =>
      rw [parts_range] at rangeless
      cases rangeless

/-- What is read of a content are its parts. -/
theorem bracketItems_eq_parts {content bytes members : Bytes} {ranges : List Item}
    (read : bracketItems content bytes = .ok (members, ranges)) :
    members = (parts bytes).1 ∧ ranges = (parts bytes).2.map rangeItem := by
  fun_induction bracketItems content bytes generalizing members ranges with
  | case1 =>
      cases read
      exact ⟨rfl, rfl⟩
  | case2 => cases read
  | case3 => cases read
  | case4 => cases read
  | case5 lo hi rest _ _ _ ih =>
      obtain ⟨⟨members', ranges'⟩, readRest, read⟩ := Outcome.bind_eq_ok.1 read
      cases read
      obtain ⟨rfl, rfl⟩ := ih readRest
      rw [parts_range]
      exact ⟨rfl, rfl⟩
  | case6 b d hi rest _ other ih =>
      obtain ⟨⟨members', ranges'⟩, readRest, read⟩ := Outcome.bind_eq_ok.1 read
      cases read
      obtain ⟨rfl, rfl⟩ := ih readRest
      have alone : (d :: hi :: rest).head? ≠ some dash := by simpa using other
      rw [parts_cons alone]
      exact ⟨rfl, rfl⟩
  | case7 => cases read
  | case8 b rest short _ ih =>
      obtain ⟨⟨members', ranges'⟩, readRest, read⟩ := Outcome.bind_eq_ok.1 read
      cases read
      obtain ⟨rfl, rfl⟩ := ih readRest
      rcases rest with _ | ⟨d, _ | ⟨hi, rest⟩⟩
      · exact ⟨rfl, rfl⟩
      · exact ⟨rfl, rfl⟩
      · exact absurd rfl (short d hi rest)

/-- Something is read of a content that is there. -/
theorem eq_nil_of_parts_eq {content : Bytes} (nothing : parts content = ([], [])) :
    content = [] := by
  unfold parts at nothing
  split at nothing
  · rfl
  · split at nothing
    · simp at nothing
    · cases nothing
  · cases nothing

/-- A content that is one range is written with three bytes. -/
theorem eq_of_parts_eq {content : Bytes} {r : UInt8 × UInt8} (single : parts content = ([], [r])) :
    content = [r.1, dash, r.2] := by
  unfold parts at single
  split at single
  · cases single
  · rename_i lo d hi rest
    split at single
    · rename_i dashed
      simp only [Prod.mk.injEq, List.cons.injEq] at single
      obtain ⟨alone, rfl, ranges⟩ := single
      rw [dashed, eq_nil_of_parts_eq (Prod.ext alone ranges)]
    · cases single
  · cases single

/-- Parts that are not one rising range are compiled together. -/
theorem bracketOf_eq_anyOf {alone : Bytes} {ranges : List (UInt8 × UInt8)} (ranged : ranges ≠ [])
    (level : ∀ r, alone = [] → ranges = [r] → ¬ r.1 < r.2) :
    bracketOf alone ranges =
      .anyOf (if alone.isEmpty then ranges.map rangeItem
        else .set alone :: ranges.map rangeItem) := by
  match alone, ranges with
  | _, [] => exact absurd rfl ranged
  | [], [r] => exact if_neg (level r rfl rfl)
  | [], r :: r' :: ranges => rfl
  | b :: alone, r :: ranges =>
      rw [bracketOf]
      rfl

/-- **A bracket expression is compiled by its parts.** -/
theorem bracketSegment_eq_bracketOf {text : String} {content : Bytes} {s : Segment}
    (done : bracketSegment text content = .ok s) :
    s = bracketOf (parts content).1 (parts content).2 := by
  -- Contents that are no single range, and have dashes.
  have mixed : ∀ {s : Segment}, dash ∈ content →
      (∀ lo hi, content = [lo, dash, hi] → ¬ lo < hi) →
      (bracketItems content content >>= fun r =>
        .ok (.anyOf (if r.1.isEmpty then r.2 else .set r.1 :: r.2))) = .ok s →
      s = bracketOf (parts content).1 (parts content).2 := by
    intro s dashed level done
    obtain ⟨⟨members, ranges⟩, read, done⟩ := Outcome.bind_eq_ok.1 done
    cases done
    have itemised := (exists_bracketItems_iff content).1 ⟨_, read⟩
    obtain ⟨rfl, rfl⟩ := bracketItems_eq_parts read
    refine (bracketOf_eq_anyOf (fun none => itemised.dash_notMem none dashed) ?_).symm
    intro r alone single
    exact level r.1 r.2 (eq_of_parts_eq (Prod.ext alone single))
  unfold bracketSegment at done
  split at done
  · cases done
  · split at done
    · rename_i dashless
      cases done
      have dashless : dash ∉ content := by simpa using dashless
      rw [parts_of_dashless dashless]
      rfl
    · rename_i dashed
      have dashed : dash ∈ content := by simpa using dashed
      split at done
      · rename_i lo d hi
        split at done
        · rename_i rising
          simp only [Bool.and_eq_true, decide_eq_true_eq] at rising
          cases done
          rw [rising.1, parts_range]
          exact (if_pos rising.2).symm
        · rename_i level
          refine mixed dashed ?_ done
          intro lo' hi' same rises
          cases same
          exact level (by simpa using rises)
      · rename_i shape
        exact mixed dashed (fun lo hi same => absurd same (shape lo dash hi)) done

/-! ## Pieces of a text -/

/-- The pieces of a text. `content` is what has been read of an open bracket expression,
reversed. -/
def pieces : (bytes : Bytes) → (content : Option Bytes) → List Piece
  | [], none => []
  | [], some read => [.bracket (parts read.reverse).1 (parts read.reverse).2]
  | b :: rest, none =>
      if b = openBracket then pieces rest (some []) else .byte b :: pieces rest none
  | b :: rest, some read =>
      if b = closeBracket then
        .bracket (parts read.reverse).1 (parts read.reverse).2 :: pieces rest none
      else pieces rest (some (b :: read))

/-- The segments of pieces. `run` is the literal run read so far, reversed. -/
def segmentsOf : (ps : List Piece) → (run : Bytes) → List Segment
  | [], run => flushRun run []
  | .byte b :: ps, run => segmentsOf ps (b :: run)
  | .bracket alone ranges :: ps, run => flushRun run (bracketOf alone ranges :: segmentsOf ps [])

/-- **A text is scanned by its pieces.** -/
theorem scan_eq_segmentsOf {text : String} {bytes run : Bytes} {content : Option Bytes}
    {segments : List Segment} (done : scan text bytes run content = .ok segments) :
    segments = segmentsOf (pieces bytes content) run := by
  induction bytes generalizing run content segments with
  | nil =>
      cases content with
      | none =>
          cases done
          rfl
      | some read => cases done
  | cons b bytes ih =>
      cases content with
      | none =>
          rw [scan] at done
          rw [pieces]
          split at done
          · rename_i opening
            rw [if_pos opening]
            exact ih done
          · rename_i inside
            rw [if_neg inside]
            split at done
            · cases done
            · exact ih done
      | some read =>
          rw [scan] at done
          rw [pieces]
          split at done
          · cases done
          · split at done
            · rename_i closing
              obtain ⟨segment, bracket, done⟩ := Outcome.bind_eq_ok.1 done
              obtain ⟨later, scanned, done⟩ := Outcome.bind_eq_ok.1 done
              cases done
              rw [if_pos closing, segmentsOf, ← bracketSegment_eq_bracketOf bracket, ← ih scanned]
            · rename_i inside
              rw [if_neg inside]
              exact ih done

theorem pieces_flushRun (run : Bytes) (segments : List Segment) :
    (flushRun run segments).flatMap Segment.pieces =
      run.reverse.map .byte ++ segments.flatMap Segment.pieces := by
  unfold flushRun
  split
  · rename_i blank
    rw [List.isEmpty_iff.1 blank]
    rfl
  · rfl

/-- Pieces can be told from their segments. -/
theorem pieces_segmentsOf (ps : List Piece) (run : Bytes) :
    (segmentsOf ps run).flatMap Segment.pieces = run.reverse.map .byte ++ ps := by
  induction ps generalizing run with
  | nil => exact pieces_flushRun run []
  | cons p ps ih =>
      cases p with
      | byte b =>
          rw [segmentsOf, ih, List.reverse_cons, List.map_append, List.append_assoc]
          rfl
      | bracket alone ranges =>
          rw [segmentsOf, pieces_flushRun, List.flatMap_cons, pieces_bracketOf, ih]
          rfl

/-- Bytes outside of brackets are pieces. -/
theorem pieces_of_bracketless {bytes : Bytes} (bracketless : openBracket ∉ bytes) :
    pieces bytes none = bytes.map .byte := by
  induction bytes with
  | nil => rfl
  | cons b bytes ih =>
      have other : b ≠ openBracket := fun same => bracketless (same ▸ List.mem_cons_self)
      rw [pieces, if_neg other, ih fun mem => bracketless (List.mem_cons_of_mem b mem)]
      rfl

/-- A bracket that is opened is a piece that is no byte. -/
theorem pieces_ne_bytes {bytes : Bytes} {content : Option Bytes}
    (opened : openBracket ∈ bytes ∨ content ≠ none) (text : Bytes) :
    pieces bytes content ≠ text.map .byte := by
  induction bytes generalizing content text with
  | nil =>
      cases content with
      | none => simp at opened
      | some read =>
          rw [pieces]
          cases text <;> nofun
  | cons b bytes ih =>
      cases content with
      | none =>
          rw [pieces]
          split
          · exact ih (Or.inr (Option.some_ne_none _)) text
          · rename_i other
            have later : openBracket ∈ bytes := by
              simpa [Ne.symm other] using opened
            intro same
            cases text with
            | nil => cases same
            | cons c text => exact ih (Or.inl later) text (List.cons.inj same).2
      | some read =>
          rw [pieces]
          split
          · cases text <;> nofun
          · exact ih (Or.inr (Option.some_ne_none _)) text

/-- A bracket is closed only if one has been opened. -/
theorem openBracket_mem_of_scan {text : String} {bytes run : Bytes} {segments : List Segment}
    (done : scan text bytes run none = .ok segments) (closing : closeBracket ∈ bytes) :
    openBracket ∈ bytes := by
  induction bytes generalizing run with
  | nil => cases closing
  | cons b bytes ih =>
      rw [scan] at done
      split at done
      · rename_i opening
        exact opening ▸ List.mem_cons_self
      · split at done
        · cases done
        · rename_i other
          have later : closeBracket ∈ bytes := by simpa [Ne.symm other] using closing
          exact List.mem_cons_of_mem b (ih done later)

/-! ## Readings -/

/-- A text with the star that an anchor stands for. -/
def Anchor.text : Anchor → (body : Bytes) → Bytes
  | .whole, body => body
  | .leading, body => body ++ [star]
  | .trailing, body => star :: body

/-- A text is its star and the rest. -/
theorem text_anchorOf (bytes : Bytes) : (anchorOf bytes).1.text (anchorOf bytes).2 = bytes := by
  cases bytes with
  | nil => rfl
  | cons b rest =>
      rw [anchorOf]
      split
      · rename_i first
        rw [Anchor.text, first]
      · split
        · rename_i last
          exact List.dropLast_append_getLast? star last
        · rfl

theorem mem_anchorOf {b : UInt8} {bytes : Bytes} (other : b ≠ star) :
    b ∈ (anchorOf bytes).2 ↔ b ∈ bytes := by
  conv_rhs => rw [← text_anchorOf bytes]
  cases (anchorOf bytes).1 <;> simp [Anchor.text, other]

/-- What the text of a pattern says: the end that its star stands for, and the pieces of the
rest. -/
def reading (bytes : Bytes) : Anchor × List Piece :=
  ((anchorOf bytes).1, pieces (anchorOf bytes).2 none)

/-- The byte that a piece is. -/
def Piece.byte? : Piece → Option UInt8
  | .byte b => some b
  | .bracket _ _ => none

/-- The shape of a text without brackets by its anchor. -/
def Anchor.literal : Anchor → (text : Bytes) → Shape
  | .whole => .exact
  | .leading => .leading
  | .trailing => .trailing

/-- The shape of a reading. -/
def Shape.ofReading (r : Anchor × List Piece) : Shape :=
  match r.2.mapM Piece.byte? with
  | some text => r.1.literal text
  | none => .pattern ⟨r.1, segmentsOf r.2 []⟩

/-- The reading of a shape. -/
def Shape.reading : Shape → Anchor × List Piece
  | .exact text => (.whole, text.map .byte)
  | .leading text => (.leading, text.map .byte)
  | .trailing text => (.trailing, text.map .byte)
  | .pattern p => (p.anchor, p.segments.flatMap Segment.pieces)

theorem mapM_byte?_eq_some {ps : List Piece} {text : Bytes} :
    ps.mapM Piece.byte? = some text ↔ ps = text.map .byte := by
  induction ps generalizing text with
  | nil => cases text <;> simp
  | cons p ps ih =>
      cases p with
      | byte b => cases text <;> simp [Piece.byte?, Option.bind_eq_some_iff, ih, and_comm]
      | bracket alone ranges => cases text <;> simp [Piece.byte?]

theorem Anchor.reading_literal (anchor : Anchor) (text : Bytes) :
    (anchor.literal text).reading = (anchor, text.map .byte) := by
  cases anchor <;> rfl

/-- **A reading can be told from its shape.** -/
theorem Shape.reading_ofReading (r : Anchor × List Piece) : (Shape.ofReading r).reading = r := by
  rw [Shape.ofReading]
  cases literal : r.2.mapM Piece.byte? with
  | some text =>
      rw [Anchor.reading_literal, ← mapM_byte?_eq_some.1 literal]
  | none => exact Prod.ext rfl (pieces_segmentsOf r.2 [])

theorem literalShape_eq {text : String} {shape : Shape} (done : literalShape text = .ok shape) :
    shape = (anchorOf (Text.utf8 text)).1.literal (anchorOf (Text.utf8 text)).2 := by
  unfold literalShape at done
  cases bytes : Text.utf8 text with
  | nil =>
      rw [bytes] at done
      cases done
      rfl
  | cons b rest =>
      simp only [bytes] at done
      rw [anchorOf]
      split at done
      · rename_i starless
        cases done
        have starless : star ∉ b :: rest := by simpa using starless
        have first : b ≠ star := fun same => starless (same ▸ List.mem_cons_self)
        rw [if_neg first, if_neg fun last => starless (List.mem_of_getLast? last)]
        rfl
      · split at done
        · rename_i first
          cases done
          simp only [Bool.and_eq_true, decide_eq_true_eq] at first
          rw [if_pos first.1.1]
          rfl
        · split at done
          · rename_i last
            cases done
            simp only [Bool.and_eq_true, decide_eq_true_eq] at last
            rw [if_neg last.1.1, if_pos last.1.2]
            rfl
          · cases done

theorem anchor_of_bracketPattern {text : String} {p : Pattern}
    (read : bracketPattern text = .ok p) : p.anchor = (anchorOf (Text.utf8 text)).1 := by
  rw [bracketPattern] at read
  dsimp only at read
  split at read
  · cases read
  · obtain ⟨segments, -, read⟩ := Outcome.bind_eq_ok.1 read
    cases read
    rfl

/-- **A text is compiled by its reading.** -/
theorem shapeOf_eq_ofReading {text : String} {shape : Shape} (done : shapeOf text = .ok shape) :
    shape = Shape.ofReading (reading (Text.utf8 text)) := by
  rw [shapeOf] at done
  rw [Shape.ofReading, reading]
  split at done
  · rename_i bracket
    cases read : bracketPattern text with
    | error cause =>
        rw [read] at done
        cases done
    | ok p =>
        rw [read] at done
        cases done
        have scanned := scan_of_bracketPattern read
        have opened : openBracket ∈ (anchorOf (Text.utf8 text)).2 := by
          simp only [Bool.or_eq_true, List.contains_iff_mem] at bracket
          rcases bracket with opening | closing
          · exact (mem_anchorOf (by decide)).2 opening
          · exact openBracket_mem_of_scan scanned ((mem_anchorOf (by decide)).2 closing)
        have notLiteral : (pieces (anchorOf (Text.utf8 text)).2 none).mapM Piece.byte? = none :=
          Option.eq_none_iff_forall_ne_some.2 fun literal same =>
            pieces_ne_bytes (Or.inl opened) literal (mapM_byte?_eq_some.1 same)
        rw [notLiteral, ← scan_eq_segmentsOf scanned, ← anchor_of_bracketPattern read]
  · rename_i bracketless
    simp only [Bool.or_eq_true, List.contains_iff_mem, not_or] at bracketless
    have unopened : openBracket ∉ (anchorOf (Text.utf8 text)).2 := fun mem =>
      bracketless.1 ((mem_anchorOf (by decide)).1 mem)
    rw [mapM_byte?_eq_some.2 (pieces_of_bracketless unopened)]
    exact literalShape_eq done

/-- Texts without brackets read alike only if they are one text. -/
theorem reading_eq_iff_of_bracketless {bytes bytes' : Bytes} (bracketless : openBracket ∉ bytes)
    (bracketless' : openBracket ∉ bytes') : reading bytes = reading bytes' ↔ bytes = bytes' := by
  constructor
  · intro alike
    obtain ⟨anchors, bodies⟩ := Prod.ext_iff.1 alike
    have unopened : ∀ {bytes : Bytes}, openBracket ∉ bytes → openBracket ∉ (anchorOf bytes).2 :=
      fun bracketless mem => bracketless ((mem_anchorOf (by decide)).1 mem)
    simp only [reading, pieces_of_bracketless (unopened bracketless),
      pieces_of_bracketless (unopened bracketless')] at anchors bodies
    have injective : Function.Injective Piece.byte := fun _ _ same => Piece.byte.inj same
    rw [← text_anchorOf bytes, ← text_anchorOf bytes', anchors, injective.list_map bodies]
  · exact congrArg reading

/-! ## Rules -/

/-- A text in the case that a rule is tested in. -/
def inCase (text : String) (caseSensitive : Bool) : String :=
  if caseSensitive then text else Text.lowercase text

/-- What a pattern and a treatment of case ask for, however the pattern is spelled. -/
def readingOf (key : String × Bool) : (Anchor × List Piece) × Bool :=
  (reading (Text.utf8 (inCase key.1 key.2)), key.2)

/-- A name is in the language of a pattern, under a treatment of case. -/
def Covers (key : String × Bool) (name : String) : Prop :=
  Language (Text.utf8 (inCase key.1 key.2)) (Text.utf8 (inCase name key.2))

/-- What tells compiled rules of one type apart, but for their weights. -/
def kind (g : Glob) : Shape × Bool := (g.shape, g.caseSensitive)

/-- What a rule compiles to, if it does. -/
def ofKey (key : String × Bool) (weight : Nat) (owner : TypeId) : Glob :=
  ⟨Shape.ofReading (readingOf key).1, key.2, weight, owner⟩

theorem compile_eq_ofKey {key : String × Bool} {weight : Nat} {owner : TypeId} {g : Glob}
    (compiled : compile key.1 key.2 weight owner = .ok g) : g = ofKey key weight owner := by
  obtain ⟨-, -, shape, read, rfl⟩ := compile_eq_ok.1 compiled
  rw [shapeOf_eq_ofReading read]
  rfl

theorem kind_ofKey_eq_iff {key key' : String × Bool} {weight weight' : Nat}
    {owner owner' : TypeId} :
    (ofKey key weight owner).kind = (ofKey key' weight' owner').kind ↔
      readingOf key = readingOf key' := by
  have injective := Function.LeftInverse.injective Shape.reading_ofReading
  rw [kind, kind, Prod.ext_iff, Prod.ext_iff]
  exact and_congr injective.eq_iff Iff.rfl

/-- Where a range stands among single bytes makes no difference. -/
example : readingOf ("[a-cx]*", true) = readingOf ("[xa-c]*", true) := by decide

theorem acceptsName_iff_covers {key : String × Bool} {weight : Nat} {owner : TypeId} {g : Glob}
    (compiled : compile key.1 key.2 weight owner = .ok g) (name : String) :
    g.acceptsName name = true ↔ Covers key name := by
  obtain ⟨-, -, shape, read, rfl⟩ := compile_eq_ok.1 compiled
  exact shapeOf_accepts read

theorem openBracket_notMem {key : String × Bool} (bracketless : '[' ∉ key.1.toList) :
    openBracket ∉ Text.utf8 (inCase key.1 key.2) := by
  rw [Text.ascii_mem_utf8 (c := '[') rfl (by decide), inCase]
  split
  · exact bracketless
  · rwa [Text.mark_mem_lowercase (by decide)]

/-- Patterns without brackets read alike if their texts are one in the case that is asked
for. -/
theorem readingOf_eq_iff_of_bracketless {key key' : String × Bool}
    (bracketless : '[' ∉ key.1.toList) (bracketless' : '[' ∉ key'.1.toList) :
    readingOf key = readingOf key' ↔
      inCase key.1 key.2 = inCase key'.1 key'.2 ∧ key.2 = key'.2 := by
  rw [readingOf, readingOf, Prod.mk.injEq, reading_eq_iff_of_bracketless
    (openBracket_notMem bracketless) (openBracket_notMem bracketless'), Text.utf8_eq_encode,
    Text.utf8_eq_encode, Text.encode_inj, String.toList_inj]

end MediaSniff.Glob
