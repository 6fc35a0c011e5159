/-
# MediaSniff.Proofs.Text.Slices — texts read by byte offsets

A reader that works in place counts bytes. It looks for the offset of a mark, reckons from there
to the bounds of a slice, and goes on with that. Each bound must lie in the text and between two
characters (`IsBoundary`), no count may come to more than the text is long, and each turn of a
loop must leave a proper end of what it found. Here a reader that breaks one of these rules
breaks off (`Breach`), so one that gives a result has kept them all.

A boundary is an offset that parts a text in two (`isBoundary_iff`), so whatever stands between
two parts of a text can be sliced out (`slice_append`). A loop whose turns all bring it nearer to
an answer (`Settles`) ends with that answer (`loop_eq`).
-/
import MediaSniff.Proofs.Outcome
import MediaSniff.Proofs.Text.Utf8
import Mathlib.Data.List.TakeWhile

set_option autoImplicit false

namespace MediaSniff.Text

/-- What breaks off a reader that works by offsets. -/
inductive Breach where
  /-- A slice whose bounds are out of order, behind the end of the text or within a character. -/
  | slice
  /-- A range, or a place, behind the end of a byte string. -/
  | range
  /-- A count that comes to more than the text is long. -/
  | count
  /-- A turn of a loop that leaves no proper end of the text that it found. -/
  | standstill
  deriving DecidableEq, Repr

/-! ## Slices -/

/-- How many bytes characters have. -/
def byteLength (cs : List Char) : Nat := (encode cs).length

@[simp] theorem byteLength_nil : byteLength [] = 0 := rfl

@[simp] theorem byteLength_cons (c : Char) (cs : List Char) :
    byteLength (c :: cs) = c.utf8Size + byteLength cs := by
  rw [byteLength, encode_cons, List.length_append, String.length_utf8EncodeChar, byteLength]

@[simp] theorem byteLength_append (cs ds : List Char) :
    byteLength (cs ++ ds) = byteLength cs + byteLength ds := by
  rw [byteLength, encode_append, List.length_append, byteLength, byteLength]

theorem byteLength_decodePrefix_le (bytes : Bytes) :
    byteLength (decodePrefix bytes) ≤ bytes.length :=
  (encode_decodePrefix_isPrefix bytes).length_le

theorem take_byteLength_decodePrefix (bytes : Bytes) :
    bytes.take (byteLength (decodePrefix bytes)) = encode (decodePrefix bytes) :=
  (List.prefix_iff_eq_take.1 (encode_decodePrefix_isPrefix bytes)).symm

/-- Whether an offset lies in a text and not within a character: the byte there, if there is one,
begins a character. -/
def IsBoundary (cs : List Char) (offset : Nat) : Prop :=
  offset ≤ byteLength cs ∧ ∀ b ∈ (encode cs)[offset]?, b.IsUTF8FirstByte

instance (cs : List Char) (offset : Nat) : Decidable (IsBoundary cs offset) :=
  inferInstanceAs (Decidable (_ ∧ _))

/-- The characters between two offsets. -/
def slice (lo hi : Nat) (cs : List Char) : Except Breach (List Char) :=
  if lo ≤ hi ∧ IsBoundary cs lo ∧ IsBoundary cs hi then
    .ok (decodePrefix (((encode cs).take hi).drop lo))
  else .error .slice

/-- The characters before an offset. -/
def sliceTo (hi : Nat) (cs : List Char) : Except Breach (List Char) := slice 0 hi cs

/-- The characters behind an offset. -/
def sliceFrom (lo : Nat) (cs : List Char) : Except Breach (List Char) :=
  slice lo (byteLength cs) cs

/-- The bytes between two places. -/
def sliceBytes (lo hi : Nat) (bytes : Bytes) : Except Breach Bytes :=
  if lo ≤ hi ∧ hi ≤ bytes.length then .ok ((bytes.take hi).drop lo) else .error .range

/-- The byte at a place. -/
def byteAt (i : Nat) (bytes : Bytes) : Except Breach UInt8 := bytes[i]?.elim (.error .range) .ok

/-- **A boundary parts a text in two.** -/
theorem isBoundary_iff {cs : List Char} {offset : Nat} :
    IsBoundary cs offset ↔ ∃ before after, cs = before ++ after ∧ byteLength before = offset := by
  constructor
  · rintro ⟨inside, begins⟩
    induction cs generalizing offset with
    | nil => exact ⟨[], [], rfl, (Nat.le_zero.1 inside).symm⟩
    | cons c cs ih =>
        rw [byteLength_cons] at inside
        rw [encode_cons] at begins
        by_cases start : offset = 0
        · exact ⟨[], c :: cs, rfl, start.symm⟩
        by_cases within : offset < c.utf8Size
        · have short : offset < (String.utf8EncodeChar c).length := by
            rwa [String.length_utf8EncodeChar]
          rw [List.getElem?_append_left short, List.getElem?_eq_getElem short] at begins
          exact absurd (UInt8.isUTF8FirstByte_getElem_utf8EncodeChar.1 (begins _ rfl)) start
        · have behind : (String.utf8EncodeChar c).length ≤ offset := by
            rw [String.length_utf8EncodeChar]
            omega
          rw [List.getElem?_append_right behind, String.length_utf8EncodeChar] at begins
          obtain ⟨before, after, rfl, long⟩ := ih (by omega) begins
          refine ⟨c :: before, after, rfl, ?_⟩
          rw [byteLength_cons]
          omega
  · rintro ⟨before, after, rfl, rfl⟩
    refine ⟨by simp, fun b here => ?_⟩
    rw [encode_append, byteLength, List.getElem?_append_right (Nat.le_refl _), Nat.sub_self] at here
    cases after with
    | nil => cases here
    | cons c rest =>
        obtain ⟨first, bytes, spelled, begins, -⟩ := exists_utf8EncodeChar_cons c
        rw [encode_cons, spelled] at here
        cases here
        exact begins

/-- **What stands between two parts of a text can be sliced out.** -/
theorem slice_append (before part after : List Char) :
    slice (byteLength before) (byteLength before + byteLength part) (before ++ (part ++ after)) =
      .ok part := by
  have low : IsBoundary (before ++ (part ++ after)) (byteLength before) :=
    isBoundary_iff.2 ⟨before, part ++ after, rfl, rfl⟩
  have high : IsBoundary (before ++ (part ++ after)) (byteLength before + byteLength part) :=
    isBoundary_iff.2 ⟨before ++ part, after, (List.append_assoc _ _ _).symm, byteLength_append _ _⟩
  have bytes : ((encode (before ++ (part ++ after))).take
      (byteLength before + byteLength part)).drop (byteLength before) = encode part := by
    rw [encode_append, encode_append, byteLength, byteLength, List.take_length_add_append,
      List.drop_left, List.take_left]
  rw [slice, if_pos ⟨Nat.le_add_right _ _, low, high⟩, bytes, decodePrefix_encode]

example : sliceFrom 1 ['é', 'l'] = .error .slice := by decide +kernel

theorem sliceTo_append (part after : List Char) :
    sliceTo (byteLength part) (part ++ after) = .ok part := by
  simpa [sliceTo] using slice_append [] part after

theorem sliceFrom_append (before part : List Char) :
    sliceFrom (byteLength before) (before ++ part) = .ok part := by
  simpa [sliceFrom] using slice_append before part []

/-- What follows a mark of one byte is sliced out by counting on from it. -/
theorem sliceFrom_append_cons {mark : Char} (narrow : mark.utf8Size = 1)
    (before part : List Char) :
    sliceFrom (byteLength before + 1) (before ++ mark :: part) = .ok part := by
  simpa [narrow] using sliceFrom_append (before ++ [mark]) part

theorem sliceBytes_zero {hi : Nat} {bytes : Bytes} (inside : hi ≤ bytes.length) :
    sliceBytes 0 hi bytes = .ok (bytes.take hi) := by
  rw [sliceBytes, if_pos ⟨Nat.zero_le hi, inside⟩, List.drop_zero]

/-! ## Offsets of marks -/

/-- The offset of the first character of a kind. -/
def findChar? (p : Char → Bool) : List Char → Option Nat
  | [] => none
  | c :: cs => if p c then some 0 else (findChar? p cs).map (c.utf8Size + ·)

/-- The offset of the first mark. -/
def findMark? (mark : Char) (cs : List Char) : Option Nat := findChar? (fun c => c = mark) cs

/-- The offset of the first place where a mark of several characters begins. -/
def findText? (mark : List Char) : List Char → Option Nat
  | [] => if mark.isEmpty then some 0 else none
  | c :: cs =>
      if mark.isPrefixOf (c :: cs) then some 0 else (findText? mark cs).map (c.utf8Size + ·)

/-- Where the characters that are not of a kind end, at the front of a text. -/
def runEnd (p : Char → Bool) (cs : List Char) : Nat := (findChar? p cs).getD (byteLength cs)

/-- A text has no character of a kind, or it has a first one. -/
theorem findChar?_cases (p : Char → Bool) (cs : List Char) :
    (findChar? p cs = none ∧ cs.takeWhile (!p ·) = cs ∧ cs.dropWhile (!p ·) = []) ∨
      ∃ front c rest, cs = front ++ c :: rest ∧ p c = true ∧
        findChar? p cs = some (byteLength front) ∧
        cs.takeWhile (!p ·) = front ∧ cs.dropWhile (!p ·) = c :: rest := by
  induction cs with
  | nil => exact .inl ⟨rfl, rfl, rfl⟩
  | cons c cs ih =>
      cases here : p c with
      | true => exact .inr ⟨[], c, cs, rfl, here, by simp [findChar?, here]⟩
      | false =>
          rcases ih with ⟨none, taken, dropped⟩ | ⟨front, d, rest, rfl, kind, found, taken, dropped⟩
          · exact .inl (by simp [findChar?, here, none, taken, dropped])
          · exact .inr ⟨c :: front, d, rest, rfl, kind,
              by simp [findChar?, here, found, taken, dropped]⟩

theorem findMark?_cases (mark : Char) (cs : List Char) :
    (findMark? mark cs = none ∧ mark ∉ cs) ∨
      ∃ front rest, cs = front ++ mark :: rest ∧ mark ∉ front ∧
        findMark? mark cs = some (byteLength front) := by
  have absent : mark ∉ cs.takeWhile fun c => !decide (c = mark) := fun mem => by
    simpa using List.mem_takeWhile_imp mem
  rcases findChar?_cases (fun c => c = mark) cs with
    ⟨none, taken, -⟩ | ⟨front, c, rest, whole, here, found, taken, -⟩
  · exact .inl ⟨none, taken ▸ absent⟩
  · obtain rfl : c = mark := of_decide_eq_true here
    exact .inr ⟨front, rest, whole, taken ▸ absent, found⟩

theorem runEnd_eq (p : Char → Bool) (cs : List Char) :
    runEnd p cs = byteLength (cs.takeWhile (!p ·)) := by
  rcases findChar?_cases p cs with ⟨none, taken, -⟩ | ⟨front, c, rest, -, -, found, taken, -⟩
  · rw [runEnd, none, taken, Option.getD_none]
  · rw [runEnd, found, taken, Option.getD_some]

/-- A run can be sliced off at its end. -/
theorem slice_runEnd (p : Char → Bool) (cs : List Char) :
    sliceTo (runEnd p cs) cs = .ok (cs.takeWhile (!p ·)) ∧
      sliceFrom (runEnd p cs) cs = .ok (cs.dropWhile (!p ·)) := by
  have front := sliceTo_append (cs.takeWhile (!p ·)) (cs.dropWhile (!p ·))
  have rest := sliceFrom_append (cs.takeWhile (!p ·)) (cs.dropWhile (!p ·))
  rw [List.takeWhile_append_dropWhile, ← runEnd_eq] at front rest
  exact ⟨front, rest⟩

/-! ## Loops -/

/-- Whether a text is what a longer one ends with. -/
def ProperEnd (rest text : List Char) : Prop := rest <:+ text ∧ rest.length < text.length

instance (rest text : List Char) : Decidable (ProperEnd rest text) :=
  inferInstanceAs (Decidable (_ ∧ _))

theorem ProperEnd.of_append {front : List Char} (nonempty : front ≠ []) (rest : List Char) :
    ProperEnd rest (front ++ rest) := by
  refine ⟨List.suffix_append front rest, ?_⟩
  have := List.length_pos_iff.2 nonempty
  rw [List.length_append]
  omega

section Loop

variable {σ β : Type} (left : σ → List Char) (turn : σ → Except Breach (σ ⊕ β))

/-- Take turns until one has a result. A turn that has none must leave a proper end of the text
that was left before it. -/
def loop (s : σ) : Except Breach β :=
  match turn s with
  | .error breach => .error breach
  | .ok (.inr result) => .ok result
  | .ok (.inl next) =>
      if ProperEnd (left next) (left s) then loop next else .error .standstill
termination_by (left s).length
decreasing_by exact (‹ProperEnd _ _›).2

/-- A turn does not break off: it has the answer, or it leaves less text and the same answer. -/
inductive Settles (answer : σ → β) (s : σ) : Prop
  | ends (done : turn s = .ok (.inr (answer s)))
  | goesOn {next : σ} (done : turn s = .ok (.inl next)) (shorter : ProperEnd (left next) (left s))
      (same : answer next = answer s)

variable {left turn}

/-- **A loop whose turns all settle ends with the answer.** -/
theorem loop_eq {answer : σ → β} (settles : ∀ s, Settles left turn answer s) (s : σ) :
    loop left turn s = .ok (answer s) := by
  induction long : (left s).length using Nat.strongRecOn generalizing s with
  | _ n ih =>
      rw [loop]
      cases settles s with
      | ends done => rw [done]
      | goesOn done shorter same =>
          rw [done]
          simp only [if_pos shorter]
          rw [ih _ (long ▸ shorter.2) _ rfl, same]

end Loop

end MediaSniff.Text
