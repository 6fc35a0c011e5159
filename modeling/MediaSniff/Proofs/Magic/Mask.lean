/-
# MediaSniff.Proofs.Magic.Mask — what a mask leaves out

A mask says which bits of a document a byte test compares. What the others are makes no difference
to the test (`foundAt_of_agreeAt`). In the pattern, though, they have to be zero: a masked byte of
the document is compared with the whole byte of the pattern, so a pattern with a bit outside its
mask is never found, and nothing is said of it when the test is compiled.

There is no other way for a test to be void. A pattern inside its mask is found in itself, put
where the test begins to look (`exists_holds_iff`). For strings whose mask keeps or drops whole
bytes compiling sees to it (`insideMask_of_string`); for other strings, and for integers, it does
not.
-/
import MediaSniff.Proofs.Magic.Node

set_option autoImplicit false

namespace MediaSniff.Magic

open Descriptor (MatchRule)

/-! ## Bits of a byte -/

theorem and_or_not (p m : UInt8) : (p &&& m) ||| (p &&& ~~~m) = p := by
  have distrib : p &&& (m ||| ~~~m) = (p &&& m) ||| (p &&& ~~~m) := by
    rw [← UInt8.toBitVec_inj]
    exact BitVec.and_or_distrib_left
  rw [← distrib, UInt8.or_not_self, UInt8.and_neg_one]

/-- A byte has no bits outside a mask if the mask keeps it. -/
theorem and_not_eq_zero_iff {p m : UInt8} : p &&& ~~~m = 0 ↔ p &&& m = p := by
  constructor
  · intro inside
    have parts := and_or_not p m
    rwa [inside, UInt8.or_zero] at parts
  · intro kept
    rw [← kept, UInt8.and_assoc, UInt8.and_not_self, UInt8.and_zero]

/-! ## Finding a pattern under a mask -/

namespace Node

/-- The bits that are compared at byte `j` of the pattern: without a mask, all. -/
def maskAt (n : Node) (j : Nat) : UInt8 :=
  match n.mask with
  | none => 0xFF
  | some bits => bits[j]?.getD 0xFF

/-- The pattern is found at position `i` of a document, bit for bit under the mask. -/
structure FoundAt (n : Node) (data : Bytes) (i : Nat) : Prop where
  low : n.start ≤ i
  high : i ≤ n.start + n.window
  room : i + n.pattern.length ≤ data.length
  bits : ∀ j (inside : j < n.pattern.length),
    data[i + j]?.map (· &&& n.maskAt j) = some n.pattern[j]

/-- Two documents have the same bits under the mask when it is laid at position `i`. -/
def AgreeAt (n : Node) (i : Nat) (data data' : Bytes) : Prop :=
  ∀ j < n.pattern.length,
    data'[i + j]?.map (· &&& n.maskAt j) = data[i + j]?.map (· &&& n.maskAt j)

instance (n : Node) (i : Nat) (data data' : Bytes) : Decidable (n.AgreeAt i data data') :=
  Nat.decidableBallLT _ _

/-- No bit of the pattern lies outside the mask. -/
def InsideMask (n : Node) : Prop :=
  ∀ bits, n.mask = some bits →
    ∀ j (inPattern : j < n.pattern.length) (inMask : j < bits.length),
      n.pattern[j] &&& ~~~bits[j] = 0

end Node

/-- The mask of a compiled test has the length of its pattern. -/
theorem length_mask {rule : MatchRule} {n : Node} (compiled : compileNode rule = .ok n)
    {bits : Bytes} (masked : n.mask = some bits) : bits.length = n.pattern.length := by
  obtain ⟨r, -, covered, rfl⟩ := compileNode_eq_ok compiled
  exact (covered bits masked).trans (r.length_pattern covered).symm

section Compiled

variable {rule : MatchRule} {n : Node} (compiled : compileNode rule = .ok n)
include compiled

theorem pattern_ne_nil : n.pattern ≠ [] := by
  obtain ⟨r, written, covered, rfl⟩ := compileNode_eq_ok compiled
  rw [← List.length_pos_iff] at written ⊢
  exact (r.length_pattern covered).symm ▸ written

/-- Where a value is found, so is the pattern compiled from it. -/
theorem holds_iff_foundAt (data : Bytes) :
    n.holds data.toByteArray = true ↔ ∃ i, n.FoundAt data i := by
  rw [holds_iff_meets compiled]
  obtain ⟨r, -, covered, rfl⟩ := compileNode_eq_ok compiled
  have long : r.node.pattern.length = r.value.length := r.length_pattern covered
  constructor
  · rintro ⟨r', i, low, high, room, bits⟩
    obtain rfl := r.unique r'
    refine ⟨i, low, high, long ▸ room, fun j inside => ?_⟩
    exact (bits j (long ▸ inside)).trans (congrArg some (r.pattern_getElem covered j inside).symm)
  · rintro ⟨i, low, high, room, bits⟩
    refine ⟨r, i, low, high, long ▸ room, fun j inside => ?_⟩
    have here : j < r.node.pattern.length := long ▸ inside
    exact (bits j here).trans (congrArg some (r.pattern_getElem covered j here))

/-- A pattern is inside its mask if the mask keeps each of its bytes as it is. -/
theorem insideMask_iff :
    n.InsideMask ↔
      ∀ j (inside : j < n.pattern.length), n.pattern[j] &&& n.maskAt j = n.pattern[j] := by
  unfold Node.InsideMask Node.maskAt
  cases masked : n.mask with
  | none =>
      have kept : ∀ b : UInt8, b &&& 0xFF = b := fun b => UInt8.and_neg_one
      simp [kept]
  | some bits =>
      have long := length_mask compiled masked
      simp only [Option.some.injEq, forall_eq', and_not_eq_zero_iff]
      refine forall_congr' fun j => forall_congr' fun inside => ?_
      have inMask : j < bits.length := long ▸ inside
      rw [List.getElem?_eq_getElem inMask, Option.getD_some]
      exact ⟨fun all => all inMask, fun all _ => all⟩

/-- **A test holds of some document exactly if its pattern lies inside its mask.** -/
theorem exists_holds_iff : (∃ data : Bytes, n.holds data.toByteArray = true) ↔ n.InsideMask := by
  rw [insideMask_iff compiled]
  simp only [holds_iff_foundAt compiled]
  constructor
  · rintro ⟨data, i, found⟩ j inside
    obtain ⟨b, -, same⟩ := Option.map_eq_some_iff.1 (found.bits j inside)
    rw [← same, UInt8.and_assoc, UInt8.and_self]
  · intro kept
    -- the pattern itself, at the first position that is tried
    refine ⟨List.replicate n.start 0 ++ n.pattern, n.start, ?_⟩
    constructor
    · exact Nat.le_refl _
    · exact Nat.le_add_right _ _
    · simp
    · intro j inside
      rw [List.getElem?_append_right (by simp), List.length_replicate, Nat.add_sub_cancel_left,
        List.getElem?_eq_getElem inside, Option.map_some, kept j inside]

/-- A string is inside its mask if the mask keeps or drops whole bytes. -/
theorem insideMask_of_string (string : rule.kind = "string")
    (whole : ∀ bits, n.mask = some bits → ∀ m ∈ bits, m = 0 ∨ m = 0xFF) : n.InsideMask := by
  obtain ⟨r, -, covered, rfl⟩ := compileNode_eq_ok compiled
  have kind : r.kind = .string := by
    have named := r.kind_eq
    rw [string] at named
    exact (Option.some.inj named).symm
  intro bits masked j inPattern inMask
  have here : r.maskAt j = bits[j] := by
    rw [Reading.maskAt, show r.mask = some bits from masked]
    simp [inMask]
  rw [show r.node.pattern[j] = r.expectedAt j _ from r.pattern_getElem covered j inPattern,
    Reading.expectedAt, here]
  rcases whole bits masked bits[j] (List.getElem_mem inMask) with dropped | kept
  · simp [kind, dropped]
  · rw [kept]
    exact UInt8.and_zero

/-- A pattern that is found stays so if only bits change that the mask leaves out. -/
theorem foundAt_of_agreeAt {data data' : Bytes} {i : Nat} (found : n.FoundAt data i)
    (agree : n.AgreeAt i data data') : n.FoundAt data' i := by
  have bits : ∀ j (inside : j < n.pattern.length),
      data'[i + j]?.map (· &&& n.maskAt j) = some n.pattern[j] :=
    fun j inside => (agree j inside).trans (found.bits j inside)
  refine ⟨found.low, found.high, ?_, bits⟩
  -- the last byte of the pattern is found, so the document is long enough
  have some_byte : 0 < n.pattern.length := List.length_pos_iff.2 (pattern_ne_nil compiled)
  obtain ⟨b, last, -⟩ := Option.map_eq_some_iff.1
    (bits (n.pattern.length - 1) (Nat.sub_lt some_byte Nat.one_pos))
  have := (List.getElem?_eq_some_iff.1 last).1
  omega

/-- **A mask leaves out bits that do not count.** The mask of a compiled test has the length of its
pattern. There is a document that the test holds of exactly if no bit of the pattern lies outside
the mask, and for a string whose mask keeps or drops whole bytes there always is one. A test holds
of a document if its pattern is found there, and then it is found in every document that has the
same bits under the mask. -/
theorem compileNode_mask :
    (∀ bits, n.mask = some bits → bits.length = n.pattern.length) ∧
    ((∃ data : Bytes, n.holds data.toByteArray = true) ↔ n.InsideMask) ∧
    (rule.kind = "string" → (∀ bits, n.mask = some bits → ∀ m ∈ bits, m = 0 ∨ m = 0xFF) →
      ∃ data : Bytes, n.holds data.toByteArray = true) ∧
    ∀ data : Bytes, (n.holds data.toByteArray = true ↔ ∃ i, n.FoundAt data i) ∧
      ∀ (data' : Bytes) (i : Nat), n.FoundAt data i → n.AgreeAt i data data' →
        n.FoundAt data' i ∧ n.holds data'.toByteArray = true := by
  refine ⟨fun _ => length_mask compiled, exists_holds_iff compiled, ?_, ?_⟩
  · intro string whole
    exact (exists_holds_iff compiled).2 (insideMask_of_string compiled string whole)
  · intro data
    refine ⟨holds_iff_foundAt compiled data, fun data' i found agree => ?_⟩
    have found' := foundAt_of_agreeAt compiled found agree
    exact ⟨found', (holds_iff_foundAt compiled data').2 ⟨i, found'⟩⟩

end Compiled

/-- Four letters, of which the third may be any. -/
def wildRule : MatchRule :=
  { offset := "2:6", kind := "string", value := "ab?d", mask := some "0xFFFF00FF" }

def wildNode : Node := ⟨2, 4, [0x61, 0x62, 0, 0x64], some [0xFF, 0xFF, 0, 0xFF]⟩

/-- A number with a bit outside its mask. -/
def strayRule : MatchRule := { offset := "0", kind := "byte", value := "0xF1", mask := some "0xF0" }

def strayNode : Node := ⟨0, 0, [0xF1], some [0xF0]⟩

/-- The letters are found whichever the third one is, and the number never is. -/
theorem wildRule_found :
    compileNode wildRule = .ok wildNode ∧
      wildNode.FoundAt [0, 0, 0, 0x61, 0x62, 0x63, 0x64] 3 ∧
      wildNode.FoundAt [9, 9, 9, 0x61, 0x62, 0x21, 0x64] 3 ∧
      compileNode strayRule = .ok strayNode ∧
      ¬ ∃ data : Bytes, strayNode.holds data.toByteArray = true := by
  have wild : compileNode wildRule = .ok wildNode := by decide +kernel
  have stray : compileNode strayRule = .ok strayNode := by decide +kernel
  have found : wildNode.FoundAt [0, 0, 0, 0x61, 0x62, 0x63, 0x64] 3 :=
    ⟨by decide, by decide, by decide, by decide⟩
  obtain ⟨-, -, -, compared⟩ := compileNode_mask wild
  obtain ⟨-, met, -, -⟩ := compileNode_mask stray
  refine ⟨wild, found, ?_, stray, fun some => ?_⟩
  · exact ((compared _).2 [9, 9, 9, 0x61, 0x62, 0x21, 0x64] 3 found (by decide)).1
  · exact absurd (met.1 some [0xF0] rfl 0 (by decide) (by decide)) (by decide)

end MediaSniff.Magic
