/-
# MediaSniff.Proofs.Magic.Integer — integer values are stored exactly or refused

The text of an integer value is a numeral of some base, with something in front that announces the
base unless it is decimal (`Announces`, `IsInteger`). A text may be of any length, but its number
must be one that fits the width of its kind (`Fits`). It is then stored as just so many bytes, and
these read back as the number in the byte order of the kind (`Stores`).

Writing a number as bytes and reading bytes as a number undo each other, each within its bounds:
numbers below `256 ^ width` on the one side, `width` bytes on the other (`ByteOrder.store_eq_iff`).
So a compiled test on integers is known from what its bytes read back as
(`compileNode_integer`).
-/
import MediaSniff.Proofs.Magic.Node
import MediaSniff.Proofs.Text.Numeral

set_option autoImplicit false

namespace MediaSniff.Magic

open Descriptor (MatchRule)
open Text (IsDigit IsNumeral)

/-! ## Integers and their bases -/

/-- What stands in front of digits announces their base: `0x` or `0X` hexadecimal, `0o` or `0O`
octal, `0b` or `0B` binary, and a `0` with more behind it octal too. Without any of them digits are
decimal. -/
inductive Announces : (front : List Char) → (base : Nat) → (digits : List Char) → Prop
  | hexadecimal {c : Char} {digits : List Char} (letter : c = 'x' ∨ c = 'X') :
      Announces ['0', c] 16 digits
  | octal {c : Char} {digits : List Char} (letter : c = 'o' ∨ c = 'O') :
      Announces ['0', c] 8 digits
  | binary {c : Char} {digits : List Char} (letter : c = 'b' ∨ c = 'B') :
      Announces ['0', c] 2 digits
  | zero {digits : List Char} (more : digits ≠ []) : Announces ['0'] 8 digits
  | decimal {digits : List Char} (bare : ['0'] <+: digits → digits = ['0']) :
      Announces [] 10 digits

/-- A text is an integer without a sign. -/
def IsInteger (text : String) (n : Nat) : Prop :=
  ∃ front base digits, text.toList = front ++ digits ∧ Announces front base digits ∧
    IsNumeral base digits n

section Bases

variable {cs digits front : List Char} {base n : Nat}

theorem Announces.base_range (announced : Announces front base digits) : 0 < base ∧ base ≤ 16 := by
  cases announced <;> decide

/-- What is split off a text announces the base of the rest. -/
theorem splitBase_announces (cs : List Char) :
    ∃ front, cs = front ++ (splitBase cs).2 ∧
      Announces front (splitBase cs).1 (splitBase cs).2 := by
  fun_cases splitBase cs with
  | case1 c digits letter => exact ⟨['0', c], rfl, .hexadecimal (by simpa using letter)⟩
  | case2 c digits _ letter => exact ⟨['0', c], rfl, .octal (by simpa using letter)⟩
  | case3 c digits _ _ letter => exact ⟨['0', c], rfl, .binary (by simpa using letter)⟩
  | case4 c digits => exact ⟨['0'], rfl, .zero (List.cons_ne_nil _ _)⟩
  | case5 cs single =>
      refine ⟨[], rfl, .decimal ?_⟩
      rintro ⟨rest, rfl⟩
      cases rest with
      | nil => rfl
      | cons c rest => exact absurd rfl (single c rest)

/-- The letters that announce a base are no octal digits. -/
theorem not_isDigit_letter {c : Char} (letter : c ∈ ['x', 'X', 'o', 'O', 'b', 'B']) (d : Nat) :
    ¬ IsDigit 8 c d := by
  have none : Text.digit? 8 c = none := by
    simp only [List.mem_cons, List.not_mem_nil, or_false] at letter
    rcases letter with rfl | rfl | rfl | rfl | rfl | rfl <;> decide
  rw [← Text.digit?_eq_some_iff (by decide), none]
  nofun

/-- A numeral behind what announces its base is split off with that base. -/
theorem splitBase_eq (announced : Announces front base digits)
    (numeral : IsNumeral base digits n) : splitBase (front ++ digits) = (base, digits) := by
  cases announced with
  | hexadecimal letter => rcases letter with rfl | rfl <;> rfl
  | octal letter => rcases letter with rfl | rfl <;> rfl
  | binary letter => rcases letter with rfl | rfl <;> rfl
  | zero more =>
      obtain ⟨c, rest, rfl⟩ := List.exists_cons_of_ne_nil more
      obtain ⟨d, digit, -⟩ := Text.isNumeral_cons.1 numeral
      have other : c ∉ ['x', 'X', 'o', 'O', 'b', 'B'] :=
        fun letter => not_isDigit_letter letter d digit
      simp only [List.mem_cons, List.not_mem_nil, or_false, not_or] at other
      simp [splitBase, other]
  | decimal bare =>
      rw [List.nil_append]
      fun_cases splitBase digits with
      | case5 => rfl
      | _ => cases bare ⟨_, rfl⟩

theorem isInteger_iff {text : String} :
    IsInteger text n ↔ IsNumeral (splitBase text.toList).1 (splitBase text.toList).2 n := by
  constructor
  · rintro ⟨front, base, digits, written, announced, numeral⟩
    rwa [written, splitBase_eq announced numeral]
  · intro numeral
    obtain ⟨front, written, announced⟩ := splitBase_announces text.toList
    exact ⟨front, _, _, written, announced, numeral⟩

end Bases

/-! ## Numbers as bytes -/

/-- The number that bytes are read as, the least significant first. -/
def littleEndianValue (bytes : Bytes) : Nat := Nat.ofDigits 256 (bytes.map UInt8.toNat)

/-- The number that bytes are read as in a byte order. -/
def ByteOrder.read (order : ByteOrder) (bytes : Bytes) : Nat :=
  match order with
  | .bigEndian => littleEndianValue bytes.reverse
  | .littleEndian => littleEndianValue bytes

theorem littleEndianValue_cons (b : UInt8) (bytes : Bytes) :
    littleEndianValue (b :: bytes) = b.toNat + 256 * littleEndianValue bytes :=
  Nat.ofDigits_cons

theorem littleEndianValue_lt (bytes : Bytes) : littleEndianValue bytes < 256 ^ bytes.length := by
  rw [← List.length_map UInt8.toNat]
  apply Nat.ofDigits_lt_base_pow_length (by decide)
  intro d mem
  obtain ⟨b, -, rfl⟩ := List.mem_map.1 mem
  exact b.toNat_lt

@[simp] theorem length_lowBytes (width n : Nat) : (lowBytes width n).length = width := by
  induction width generalizing n with
  | zero => rfl
  | succ width ih => rw [lowBytes, List.length_cons, ih]

/-- A number comes back from its bytes, if these are enough. -/
theorem littleEndianValue_lowBytes {width n : Nat} (fits : n < 256 ^ width) :
    littleEndianValue (lowBytes width n) = n := by
  induction width generalizing n with
  | zero =>
      rw [Nat.pow_zero, Nat.lt_one_iff] at fits
      rw [fits]
      rfl
  | succ width ih =>
      have high : n / 256 < 256 ^ width := Nat.div_lt_of_lt_mul (by rwa [← Nat.pow_succ'])
      have low : (UInt8.ofNat (n % 256)).toNat = n % 256 :=
        UInt8.toNat_ofNat_of_lt (Nat.mod_lt n (by decide))
      rw [lowBytes, littleEndianValue_cons, ih high, low, Nat.mod_add_div]

/-- Bytes come back from their number. -/
theorem lowBytes_littleEndianValue (bytes : Bytes) :
    lowBytes bytes.length (littleEndianValue bytes) = bytes := by
  induction bytes with
  | nil => rfl
  | cons b bytes ih =>
      have small : b.toNat < 256 := b.toNat_lt
      have low : (b.toNat + 256 * littleEndianValue bytes) % 256 = b.toNat := by omega
      have high : (b.toNat + 256 * littleEndianValue bytes) / 256 = littleEndianValue bytes := by
        omega
      rw [List.length_cons, lowBytes, littleEndianValue_cons, low, high, ih, UInt8.ofNat_toNat]

namespace ByteOrder

theorem read_lt (order : ByteOrder) (bytes : Bytes) : order.read bytes < 256 ^ bytes.length := by
  cases order with
  | bigEndian => exact bytes.length_reverse ▸ littleEndianValue_lt bytes.reverse
  | littleEndian => exact littleEndianValue_lt bytes

/-- **Storing gives the bytes that read back as the number.** -/
theorem store_eq_iff (order : ByteOrder) {width n : Nat} {bytes : Bytes}
    (fits : n < 256 ^ width) :
    order.store width n = bytes ↔ bytes.length = width ∧ order.read bytes = n := by
  have little (bytes : Bytes) :
      lowBytes width n = bytes ↔ bytes.length = width ∧ littleEndianValue bytes = n := by
    constructor
    · rintro rfl
      exact ⟨length_lowBytes width n, littleEndianValue_lowBytes fits⟩
    · rintro ⟨rfl, rfl⟩
      exact lowBytes_littleEndianValue bytes
  cases order with
  | bigEndian => rw [store, read, List.reverse_eq_iff, little, List.length_reverse]
  | littleEndian => exact little bytes

end ByteOrder

/-! ## Integer values -/

/-- A text is an integer that fits so many bytes. -/
def Fits (width : Nat) (text : String) : Prop := ∃ n, IsInteger text n ∧ n < 256 ^ width

/-- Bytes store the integer that a text is. -/
def Stores (width : Nat) (order : ByteOrder) (text : String) (bytes : Bytes) : Prop :=
  bytes.length = width ∧ IsInteger text (order.read bytes)

section Values

variable {width : Nat} {order : ByteOrder} {text : String} {bytes : Bytes}

theorem natural?_splitBase {n : Nat} :
    Text.natural? (splitBase text.toList).1 (Nat.pow 256 width) (splitBase text.toList).2 = some n ↔
      IsInteger text n ∧ n < 256 ^ width := by
  obtain ⟨_, -, announced⟩ := splitBase_announces text.toList
  obtain ⟨positive, small⟩ := announced.base_range
  rw [isInteger_iff]
  exact Text.natural?_eq_some_iff positive small (Nat.pow_pos (by decide))

/-- **An integer is read as the bytes that store it.** -/
theorem parseInteger_eq_ok :
    parseInteger width order text = .ok bytes ↔ Stores width order text bytes := by
  have stored : parseInteger width order text = .ok bytes ↔
      ∃ n, (IsInteger text n ∧ n < 256 ^ width) ∧ order.store width n = bytes := by
    simp only [← natural?_splitBase]
    unfold parseInteger
    dsimp only
    cases Text.natural? (splitBase text.toList).1 (Nat.pow 256 width) (splitBase text.toList).2 with
    | none => simp
    | some n => simp
  rw [stored]
  constructor
  · rintro ⟨n, ⟨integer, fits⟩, store⟩
    obtain ⟨long, rfl⟩ := (order.store_eq_iff fits).1 store
    exact ⟨long, integer⟩
  · rintro ⟨rfl, integer⟩
    have fits := order.read_lt bytes
    exact ⟨order.read bytes, ⟨integer, fits⟩, (order.store_eq_iff fits).2 ⟨rfl, rfl⟩⟩

/-- An integer is stored if it fits. -/
theorem exists_stores (order : ByteOrder) :
    (∃ bytes, Stores width order text bytes) ↔ Fits width text := by
  constructor
  · rintro ⟨bytes, rfl, integer⟩
    exact ⟨_, integer, order.read_lt bytes⟩
  · rintro ⟨n, integer, fits⟩
    obtain ⟨long, value⟩ := (order.store_eq_iff fits).1 rfl
    exact ⟨order.store width n, long, value.symm ▸ integer⟩

end Values

/-! ## Compiled tests -/

/-- The kinds of integers, with their width and byte order. Host order is little-endian. -/
def integerKinds : List (String × Nat × ByteOrder) :=
  [("byte", 1, .bigEndian), ("big16", 2, .bigEndian), ("host16", 2, .littleEndian),
    ("little16", 2, .littleEndian), ("big32", 4, .bigEndian), ("host32", 4, .littleEndian),
    ("little32", 4, .littleEndian)]

theorem ofName?_integer {name : String} {width : Nat} {order : ByteOrder}
    (kind : (name, width, order) ∈ integerKinds) :
    ValueKind.ofName? name = some (.integer width order) ∧ 0 < width := by
  have all : ∀ kind ∈ integerKinds,
      ValueKind.ofName? kind.1 = some (.integer kind.2.1 kind.2.2) ∧ 0 < kind.2.1 := by decide
  exact all _ kind

section Compiled

variable {rule : MatchRule} {width : Nat} {order : ByteOrder} {n : Node}
  (kind : (rule.kind, width, order) ∈ integerKinds)
include kind

/-- A test on integers is compiled to the place of its offset and to bytes that store its value and
its mask. -/
theorem compileNode_integer_iff :
    compileNode rule = .ok n ↔
      parseOffset rule.offset = .ok (n.start, n.window) ∧ Stores width order rule.value n.pattern ∧
        Option.Rel (Stores width order) rule.mask n.mask := by
  obtain ⟨named, positive⟩ := ofName?_integer kind
  constructor
  · intro compiled
    obtain ⟨r, -, -, rfl⟩ := compileNode_eq_ok compiled
    have numeric : r.kind = .integer width order := Option.some.inj (r.kind_eq.symm.trans named)
    have value := r.value_eq
    have mask := Outcome.option_mapM_eq_ok.1 r.mask_eq
    simp only [numeric, ValueKind.parseValue, ValueKind.parseMask, parseInteger_eq_ok] at value mask
    refine ⟨r.offset_eq, ?_, mask⟩
    rw [Reading.node, r.pattern_eq_value numeric]
    exact value
  · rintro ⟨offset, value, mask⟩
    let r : Reading rule := {
      kind := .integer width order
      start := n.start
      window := n.window
      value := n.pattern
      mask := n.mask
      kind_eq := named
      offset_eq := offset
      value_eq := parseInteger_eq_ok.2 value
      mask_eq := by
        simpa only [Outcome.option_mapM_eq_ok, ValueKind.parseMask, parseInteger_eq_ok] using mask }
    have written : r.value ≠ [] := List.ne_nil_of_length_pos (value.1 ▸ positive)
    have covered : r.Covered := by
      intro bits masked
      have both : Option.Rel (Stores width order) rule.mask (some bits) := masked ▸ mask
      generalize rule.mask = given at both
      cases both with
      | some stores => exact stores.1.trans value.1.symm
    rw [r.compileNode_eq written covered, Reading.node, r.pattern_eq_value rfl]

/-- **Integers are stored exactly or refused.** A test on integers is compiled exactly if its offset
is one, and its value and its mask, if there is one, are integers without a sign that fit the width
of its kind. Value and mask are then stored in as many bytes as the width says, which read back as
these integers in the byte order of the kind. -/
theorem compileNode_integer :
    ((∃ n, compileNode rule = .ok n) ↔
      (∃ place, parseOffset rule.offset = .ok place) ∧ Fits width rule.value ∧
        ∀ text, rule.mask = some text → Fits width text) ∧
    ∀ n, compileNode rule = .ok n ↔
      parseOffset rule.offset = .ok (n.start, n.window) ∧ Stores width order rule.value n.pattern ∧
        Option.Rel (Stores width order) rule.mask n.mask := by
  refine ⟨?_, fun _ => compileNode_integer_iff kind⟩
  simp only [compileNode_integer_iff kind, ← exists_stores order]
  constructor
  · rintro ⟨n, offset, value, mask⟩
    refine ⟨⟨_, offset⟩, ⟨_, value⟩, fun text given => ?_⟩
    rw [given] at mask
    generalize n.mask = bits at mask
    cases mask with
    | some stores => exact ⟨_, stores⟩
  · rintro ⟨⟨⟨start, window⟩, offset⟩, ⟨pattern, value⟩, masks⟩
    cases given : rule.mask with
    | none => exact ⟨⟨start, window, pattern, none⟩, offset, value, .none⟩
    | some text =>
        obtain ⟨bits, stores⟩ := masks text given
        exact ⟨⟨start, window, pattern, some bits⟩, offset, value, .some stores⟩

end Compiled

/-- A value led by more zeros than a word has digits, under a mask written in octal. -/
def paddedRule : MatchRule :=
  { offset := "4:8", kind := "little32", value := "0x00000000000000000000CAFE"
    mask := some "0177777" }

/-- The value is stored in four bytes, the least significant first, and so is the mask. -/
theorem paddedRule_stored :
    (paddedRule.kind, 4, .littleEndian) ∈ integerKinds ∧
      compileNode paddedRule = .ok ⟨4, 4, [0xFE, 0xCA, 0, 0], some [0xFF, 0xFF, 0, 0]⟩ ∧
      Stores 4 .littleEndian paddedRule.value [0xFE, 0xCA, 0, 0] ∧
      ByteOrder.littleEndian.read [0xFE, 0xCA, 0, 0] = 0xCAFE ∧ Fits 4 paddedRule.value := by
  have kind : (paddedRule.kind, 4, .littleEndian) ∈ integerKinds := by decide
  have compiled : compileNode paddedRule =
      .ok ⟨4, 4, [0xFE, 0xCA, 0, 0], some [0xFF, 0xFF, 0, 0]⟩ := by decide +kernel
  obtain ⟨accepted, stored⟩ := compileNode_integer kind
  exact ⟨kind, compiled, ((stored _).1 compiled).2.1, by decide, (accepted.1 ⟨_, compiled⟩).2.1⟩

end MediaSniff.Magic
