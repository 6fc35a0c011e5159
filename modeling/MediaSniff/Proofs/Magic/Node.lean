/-
# MediaSniff.Proofs.Magic.Node — what a byte test looks for

The texts of a byte test are read into a `Reading`: a first position, a window, a value
and a mask. A document meets the test if the value is found at some position that the
window allows, bit for bit under the mask (`Meets`). A compiled test holds of a document
exactly then (`holds_iff_meets`).

Two things stand between the two. The compiled test tries only positions at which the
whole value fits in front of the end of the document (`positions`), so that it never looks
behind it; and the bytes of a string value that its mask leaves out are zero in the
compiled pattern, as the comparison with a masked byte needs.
-/
import MediaSniff.Magic.Node
import MediaSniff.Proofs.Outcome

set_option autoImplicit false

namespace MediaSniff.Magic

open Descriptor (MatchRule)

/-! ## The meaning of a byte test -/

/-- What the texts of a byte test are read as. -/
structure Reading (rule : MatchRule) where
  kind : ValueKind
  start : Nat
  window : Nat
  value : Bytes
  mask : Option Bytes
  kind_eq : ValueKind.ofName? rule.kind = some kind
  offset_eq : parseOffset rule.offset = .ok (start, window)
  value_eq : kind.parseValue rule.value = .ok value
  mask_eq : rule.mask.mapM kind.parseMask = .ok mask

namespace Reading

variable {rule : MatchRule}

/-- The bits of the value that are compared at its byte `j`: without a mask, all. -/
def maskAt (r : Reading rule) (j : Nat) : UInt8 :=
  match r.mask with
  | none => 0xFF
  | some bits => bits[j]?.getD 0xFF

/-- What those bits must be. A byte of a string that the mask leaves out is a wildcard. -/
def expectedAt (r : Reading rule) (j : Nat) (inside : j < r.value.length) : UInt8 :=
  if r.kind = .string ∧ r.maskAt j = 0 then 0 else r.value[j]

/-- The value is found at position `i` of a document. -/
def FoundAt (r : Reading rule) (data : Bytes) (i : Nat) : Prop :=
  i + r.value.length ≤ data.length ∧
    ∀ j (inside : j < r.value.length),
      data[i + j]?.map (· &&& r.maskAt j) = some (r.expectedAt j inside)

end Reading

/-- A document meets a byte test. -/
def Meets (rule : MatchRule) (data : Bytes) : Prop :=
  ∃ (r : Reading rule) (i : Nat), r.start ≤ i ∧ i ≤ r.start + r.window ∧ r.FoundAt data i

/-- Texts are read in one way. -/
theorem Reading.unique {rule : MatchRule} (r r' : Reading rule) : r = r' := by
  obtain ⟨kind, start, window, value, mask, kind_eq, offset_eq, value_eq, mask_eq⟩ := r
  obtain ⟨kind', start', window', value', mask', kind_eq', offset_eq', value_eq', mask_eq'⟩ := r'
  obtain rfl : kind = kind' := Option.some.inj (kind_eq.symm.trans kind_eq')
  obtain ⟨rfl, rfl⟩ : start = start' ∧ window = window' := by
    simpa using offset_eq.symm.trans offset_eq'
  obtain rfl : value = value' := by simpa using value_eq.symm.trans value_eq'
  obtain rfl : mask = mask' := by simpa using mask_eq.symm.trans mask_eq'
  rfl

/-! ## Compiling -/

namespace Reading

variable {rule : MatchRule}

/-- The pattern of the compiled test. -/
def pattern (r : Reading rule) : Bytes :=
  match r.mask with
  | none => r.value
  | some bits => if r.kind = .string then blankOut r.value bits else r.value

/-- The compiled test. -/
def node (r : Reading rule) : Node := ⟨r.start, r.window, r.pattern, r.mask⟩

/-- The mask covers the value byte for byte. -/
def Covered (r : Reading rule) : Prop := ∀ bits, r.mask = some bits → bits.length = r.value.length

theorem length_pattern (r : Reading rule) (covered : r.Covered) :
    r.pattern.length = r.value.length := by
  unfold pattern
  split
  · rfl
  · rename_i bits masked
    split
    · rw [blankOut, List.length_zipWith, covered bits masked, Nat.min_self]
    · rfl

/-- A mask changes no integer. -/
theorem pattern_eq_value (r : Reading rule) {width : Nat} {order : ByteOrder}
    (numeric : r.kind = .integer width order) : r.pattern = r.value := by
  cases masked : r.mask with
  | none => simp only [pattern, masked]
  | some bits => simp [pattern, masked, numeric]

end Reading

/-- A byte test is compiled from a reading of its texts, whose value is not empty and
whose mask covers the value. -/
theorem compileNode_eq_ok {rule : MatchRule} {n : Node} (compiled : compileNode rule = .ok n) :
    ∃ r : Reading rule, r.value ≠ [] ∧ r.Covered ∧ n = r.node := by
  unfold compileNode at compiled
  obtain ⟨⟨start, window⟩, offset, compiled⟩ := Outcome.bind_eq_ok.1 compiled
  cases named : ValueKind.ofName? rule.kind with
  | none =>
      rw [named] at compiled
      cases compiled
  | some kind =>
      rw [named] at compiled
      obtain ⟨value, valued, compiled⟩ := Outcome.bind_eq_ok.1 compiled
      obtain ⟨mask, masked, compiled⟩ := Outcome.bind_eq_ok.1 compiled
      have notEmpty : value.isEmpty = false := by
        cases blank : value.isEmpty with
        | false => rfl
        | true =>
            simp only [blank, if_true] at compiled
            cases compiled
      have some_byte : value ≠ [] := fun blank => by simp [blank] at notEmpty
      simp only [notEmpty, Bool.false_eq_true, if_false] at compiled
      cases mask with
      | none =>
          cases compiled
          refine ⟨⟨kind, start, window, value, none, named, offset, valued, masked⟩, some_byte,
            ?_, rfl⟩
          intro _ impossible
          cases impossible
      | some bits =>
          by_cases long : bits.length = value.length
          · simp only [long, ne_eq, not_true_eq_false, if_false] at compiled
            cases compiled
            refine ⟨⟨kind, start, window, value, some bits, named, offset, valued, masked⟩,
              some_byte, ?_, rfl⟩
            intro _ same
            cases same
            exact long
          · simp only [ne_eq, long, not_false_eq_true, if_true] at compiled
            cases compiled

/-- Every such reading is compiled. -/
theorem Reading.compileNode_eq {rule : MatchRule} (r : Reading rule) (written : r.value ≠ [])
    (covered : r.Covered) : compileNode rule = .ok r.node := by
  obtain ⟨kind, start, window, value, mask, kind_eq, offset_eq, value_eq, mask_eq⟩ := r
  have notEmpty : value.isEmpty = false := by simpa using written
  unfold compileNode
  rw [offset_eq, Outcome.ok_bind, kind_eq]
  dsimp only
  rw [value_eq, Outcome.ok_bind, mask_eq, Outcome.ok_bind, notEmpty]
  cases mask with
  | none => rfl
  | some bits =>
      have long : bits.length = value.length := covered bits rfl
      simp only [long, ne_eq, not_true_eq_false, if_false]
      rfl

/-! ## Searching -/

namespace Node

/-- The positions that the test tries on a document of `size` bytes. -/
def positions (n : Node) (size : Nat) : List Nat :=
  if n.start + n.pattern.length ≤ size then
    List.range' n.start (min n.window (size - n.pattern.length - n.start) + 1)
  else []

theorem mem_positions {n : Node} {size i : Nat} :
    i ∈ n.positions size ↔
      n.start ≤ i ∧ i ≤ n.start + n.window ∧ i + n.pattern.length ≤ size := by
  unfold positions
  split
  · rw [List.mem_range'_1]
    omega
  · rw [List.mem_nil_iff, false_iff]
    omega

theorem fitsWithin_eq (n : Node) (document pattern : ByteArray) (further i : Nat) :
    n.fitsWithin document pattern further i =
      (List.range' i (further + 1)).any (n.fitsAt document pattern) := by
  induction further generalizing i with
  | zero => simp [fitsWithin]
  | succ further ih =>
      rw [fitsWithin, ih, List.range'_succ (n := further + 1), List.any_cons]

/-- A test holds of a document if what it looks for begins at one of its positions. -/
theorem holds_eq_any (n : Node) (document : ByteArray) :
    n.holds document =
      (n.positions document.size).any (n.fitsAt document n.pattern.toByteArray) := by
  unfold holds positions
  simp only [fitsWithin_eq]
  split
  · rename_i fits
    rw [decide_eq_true fits, Bool.true_and]
  · rename_i short
    rw [decide_eq_false short, Bool.false_and]
    rfl

end Node

/-! ## Comparing -/

theorem beq_iff {a b : ByteArray} : (a == b) = true ↔ a = b := by
  obtain ⟨a⟩ := a
  obtain ⟨b⟩ := b
  show (a == b) = true ↔ _
  rw [beq_iff_eq, ByteArray.mk.injEq]

theorem getElem?_toByteArray (data : Bytes) (i : Nat) : data.toByteArray[i]? = data[i]? := by
  by_cases inside : i < data.length
  · rw [getElem?_pos data.toByteArray i (by simpa using inside), getElem?_pos data i inside,
      List.getElem_toByteArray]
  · rw [getElem?_neg data.toByteArray i (by simpa using inside), getElem?_neg data i inside]

theorem extract_toByteArray (data : Bytes) (i j : Nat) :
    data.toByteArray.extract i j = ((data.take j).drop i).toByteArray := by
  rw [ByteArray.ext_iff, ByteArray.data_extract, List.data_toByteArray, List.data_toByteArray,
    List.extract_toArray, List.extract_eq_take_drop, List.drop_take]

/-- A block is that of a pattern if every byte is. -/
theorem take_drop_eq_iff {data pattern : Bytes} {i : Nat}
    (fits : i + pattern.length ≤ data.length) :
    (data.take (i + pattern.length)).drop i = pattern ↔
      ∀ j (inside : j < pattern.length), data[i + j]? = some pattern[j] := by
  have long : ((data.take (i + pattern.length)).drop i).length = pattern.length := by
    rw [List.length_drop, List.length_take]
    omega
  constructor
  · intro same j inside
    have byte := congrArg (·[j]?) same
    simp only [List.getElem?_drop, List.getElem?_take_of_lt (show i + j < i + pattern.length by omega),
      List.getElem?_eq_getElem inside] at byte
    exact byte
  · intro same
    apply List.ext_getElem? 
    intro j
    by_cases inside : j < pattern.length
    · rw [List.getElem?_drop, List.getElem?_take_of_lt (by omega), same j inside,
        List.getElem?_eq_getElem inside]
    · rw [List.getElem?_eq_none (by omega), List.getElem?_eq_none (by omega)]

/-- Without a mask bytes are compared as a block. That the first byte is compared on its
own before makes no difference. -/
theorem agrees_iff {data pattern : Bytes} {i : Nat} (fits : i + pattern.length ≤ data.length) :
    agrees data.toByteArray pattern.toByteArray i = true ↔
      ∀ j (inside : j < pattern.length), data[i + j]? = some pattern[j] := by
  rw [← take_drop_eq_iff fits, agrees, getElem?_toByteArray, getElem?_toByteArray,
    List.size_toByteArray, extract_toByteArray]
  cases pattern with
  | nil => simp
  | cons p pattern =>
      simp only [List.getElem?_cons_zero, Bool.and_eq_true, beq_iff, List.toByteArray_inj,
        beq_iff_eq, and_iff_right_iff_imp]
      intro same
      exact (take_drop_eq_iff fits).1 same 0 (Nat.zero_lt_succ _)

/-- Under a mask bytes are compared one by one. -/
theorem agreesUnder_iff {data mask pattern : Bytes} {i : Nat}
    (covered : mask.length = pattern.length) :
    agreesUnder data.toByteArray mask pattern i = true ↔
      ∀ j (inside : j < pattern.length),
        data[i + j]?.map (· &&& mask[j]) = some pattern[j] := by
  induction pattern generalizing mask i with
  | nil =>
      cases mask with
      | nil => simp [agreesUnder]
      | cons m mask => simp at covered
  | cons p pattern ih =>
      cases mask with
      | nil => simp at covered
      | cons m mask =>
          rw [List.length_cons, List.length_cons, Nat.add_right_cancel_iff] at covered
          have first : agreesUnder data.toByteArray (m :: mask) (p :: pattern) i = true ↔
              data[i]?.map (· &&& m) = some p ∧
                agreesUnder data.toByteArray mask pattern (i + 1) = true := by
            rw [agreesUnder, getElem?_toByteArray]
            cases data[i]? <;> simp
          rw [first, ih covered]
          constructor
          · rintro ⟨here, later⟩ j inside
            cases j with
            | zero => exact here
            | succ j =>
                rw [show i + (j + 1) = i + 1 + j by omega]
                exact later j (Nat.lt_of_succ_lt_succ inside)
          · intro all
            refine ⟨all 0 (Nat.zero_lt_succ _), fun j inside => ?_⟩
            rw [show i + 1 + j = i + (j + 1) by omega]
            exact all (j + 1) (Nat.succ_lt_succ inside)

namespace Reading

variable {rule : MatchRule}

/-- The compiled pattern holds what the bytes under the mask must be. -/
theorem pattern_getElem (r : Reading rule) (covered : r.Covered) (j : Nat)
    (inside : j < r.pattern.length) :
    r.pattern[j] = r.expectedAt j (r.length_pattern covered ▸ inside) := by
  obtain ⟨kind, start, window, value, mask, _, _, _, _⟩ := r
  cases mask with
  | none => simp [pattern, expectedAt, maskAt]
  | some bits =>
      have long : bits.length = value.length := covered bits rfl
      have inBits : j < bits.length := by
        rw [long]
        exact (length_pattern _ covered) ▸ inside
      by_cases string : kind = .string
      · simp [pattern, expectedAt, maskAt, string, blankOut, inBits]
      · simp [pattern, expectedAt, maskAt, string]

/-- At a position where the whole value fits, the compiled test looks for the value. -/
theorem fitsAt_iff (r : Reading rule) (covered : r.Covered) {data : Bytes} {i : Nat}
    (fits : i + r.pattern.length ≤ data.length) :
    r.node.fitsAt data.toByteArray r.pattern.toByteArray i = true ↔ r.FoundAt data i := by
  have byByte : r.node.fitsAt data.toByteArray r.pattern.toByteArray i = true ↔
      ∀ j (inside : j < r.pattern.length),
        data[i + j]?.map (· &&& r.maskAt j) = some r.pattern[j] := by
    unfold Node.fitsAt
    split
    · rename_i bare
      have everyBit : ∀ j, r.maskAt j = 0xFF := by
        intro j
        simp only [node] at bare
        simp [maskAt, bare]
      have kept : ∀ b : UInt8, b &&& 0xFF = b := fun b => UInt8.and_neg_one
      simp only [agrees_iff fits, everyBit, kept, Option.map_id']
    · rename_i bits masked
      have long : bits.length = r.pattern.length := by
        rw [r.length_pattern covered]
        exact covered bits masked
      have theseBits : ∀ j (inside : j < bits.length), r.maskAt j = bits[j] := by
        intro j inside
        simp only [node] at masked
        simp [maskAt, masked, inside]
      rw [show r.node.pattern = r.pattern from rfl, agreesUnder_iff long]
      constructor
      · intro all j inside
        rw [theseBits j (long ▸ inside)]
        exact all j inside
      · intro all j inside
        rw [← theseBits j (long ▸ inside)]
        exact all j inside
  rw [byByte, FoundAt]
  constructor
  · intro all
    refine ⟨r.length_pattern covered ▸ fits, fun j inside => ?_⟩
    have here : j < r.pattern.length := by rwa [r.length_pattern covered]
    rw [← r.pattern_getElem covered j here]
    exact all j here
  · rintro ⟨-, all⟩ j inside
    rw [r.pattern_getElem covered j inside]
    exact all j (by rwa [← r.length_pattern covered])

end Reading

/-- **A compiled test holds of the documents that meet the test.** -/
theorem holds_iff_meets {rule : MatchRule} {n : Node} (compiled : compileNode rule = .ok n)
    (data : Bytes) : n.holds data.toByteArray = true ↔ Meets rule data := by
  obtain ⟨r, -, covered, rfl⟩ := compileNode_eq_ok compiled
  rw [Node.holds_eq_any, List.any_eq_true, List.size_toByteArray]
  constructor
  · rintro ⟨i, tried, fits⟩
    obtain ⟨low, high, room⟩ := Node.mem_positions.1 tried
    exact ⟨r, i, low, high, (r.fitsAt_iff covered room).1 fits⟩
  · rintro ⟨r', i, low, high, found⟩
    obtain rfl := r.unique r'
    have room : i + r.pattern.length ≤ data.length := by
      rw [r.length_pattern covered]
      exact found.1
    exact ⟨i, Node.mem_positions.2 ⟨low, high, room⟩, (r.fitsAt_iff covered room).2 found⟩

end MediaSniff.Magic
