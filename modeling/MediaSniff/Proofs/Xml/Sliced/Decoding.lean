/-
# MediaSniff.Proofs.Xml.Sliced.Decoding — a document decoded by slices

Decoding takes the window of the document, the well-formed beginning of that, and the text up to
the first character that may not stand there, each as a slice. How far bytes are well formed is
told by the greatest length at which they are those of a text (`validUpTo`), and that is where
the characters end that are read one by one (`validUpTo_eq`). So no slice is out of bounds, and
the text is the one that is decoded (`Sliced.decode_eq`).

Every character of the text comes from a byte of the window, or from two. So the text has at most
twice as many bytes as the window (`byteLength_decode_le`).
-/
import MediaSniff.Proofs.Text.Slices
import MediaSniff.Proofs.Xml.Decoding
import Mathlib.Data.Nat.Find

set_option autoImplicit false

namespace MediaSniff.Xml

open Text (Breach byteLength findChar? sliceTo sliceBytes byteAt)

namespace Sliced

/-! ## Decoding -/

/-- How far a byte string is well formed: the greatest length at which it is a text. -/
def validUpTo (bytes : Bytes) : Nat :=
  Nat.findGreatest (fun n => (Text.ofUtf8? (bytes.take n)).isSome) bytes.length

/-- The characters of the longest well-formed beginning of a byte string. -/
def utf8Prefix (bytes : Bytes) : Except Breach (List Char) :=
  match Text.ofUtf8? bytes with
  | some text => .ok text.toList
  | none => do
      let valid ← sliceBytes 0 (validUpTo bytes) bytes
      return ((Text.ofUtf8? valid).getD "").toList

/-- Bytes in pairs; a single byte at the end is left out. -/
def pairs : Bytes → List Bytes
  | a :: b :: rest => [a, b] :: pairs rest
  | _ => []

/-- The 16-bit unit of a pair of bytes, in a byte order. -/
def unit (order : UInt8 → UInt8 → Nat) (pair : Bytes) : Except Breach Nat := do
  return order (← byteAt 0 pair) (← byteAt 1 pair)

/-- The characters of the longest well-formed beginning of a UTF-16 text. -/
def utf16Prefix (order : UInt8 → UInt8 → Nat) (bytes : Bytes) : Except Breach (List Char) := do
  return decodeUnits (← (pairs bytes).mapM (unit order))

def decodeMarked : Bytes → Except Breach (List Char)
  | 0xEF :: 0xBB :: 0xBF :: rest => utf8Prefix rest
  | 0xFE :: 0xFF :: rest => utf16Prefix (fun hi lo => hi.toNat * 256 + lo.toNat) rest
  | 0xFF :: 0xFE :: rest => utf16Prefix (fun lo hi => hi.toNat * 256 + lo.toNat) rest
  | bytes => utf8Prefix bytes

/-- The text of a document's beginning. -/
def decode (data : Bytes) : Except Breach (List Char) := do
  let text ← decodeMarked (← sliceBytes 0 (min data.length scanLimit) data)
  match findChar? (!isPlain ·) text with
  | some stop => sliceTo stop text
  | none => return text

/-! ## Within bounds -/

/-- **Bytes are well formed as far as characters can be read.** -/
theorem validUpTo_eq (bytes : Bytes) : validUpTo bytes = byteLength (Text.decodePrefix bytes) := by
  have inside := Text.byteLength_decodePrefix_le bytes
  have readable : (Text.ofUtf8? (bytes.take (byteLength (Text.decodePrefix bytes)))).isSome := by
    rw [Text.take_byteLength_decodePrefix, Text.ofUtf8?_encode]
    rfl
  apply Nat.le_antisymm
  · have valid : (Text.ofUtf8? (bytes.take (validUpTo bytes))).isSome :=
      Nat.findGreatest_spec (P := fun n => (Text.ofUtf8? (bytes.take n)).isSome) inside readable
    obtain ⟨text, read⟩ := Option.isSome_iff_exists.1 valid
    have spelled := Text.utf8_of_ofUtf8? read
    rw [Text.utf8_eq_encode] at spelled
    obtain ⟨more, whole⟩ : text.toList <+: Text.decodePrefix bytes := by
      rw [← Text.decodePrefix_encode text.toList, spelled]
      exact Text.decodePrefix_mono (List.take_prefix _ _)
    have most : validUpTo bytes ≤ bytes.length := Nat.findGreatest_le _
    calc validUpTo bytes
        = byteLength text.toList := by
          rw [byteLength, spelled, List.length_take, Nat.min_eq_left most]
      _ ≤ byteLength (Text.decodePrefix bytes) := by
          rw [← whole, Text.byteLength_append]
          exact Nat.le_add_right _ _
  · exact Nat.le_findGreatest inside readable

theorem utf8Prefix_eq (bytes : Bytes) : utf8Prefix bytes = .ok (Text.decodePrefix bytes) := by
  rw [utf8Prefix]
  cases read : Text.ofUtf8? bytes with
  | some text =>
      have spelled := Text.utf8_of_ofUtf8? read
      rw [Text.utf8_eq_encode] at spelled
      simp only [← spelled, Text.decodePrefix_encode]
  | none =>
      simp only
      rw [validUpTo_eq, Text.sliceBytes_zero (Text.byteLength_decodePrefix_le bytes),
        Outcome.ok_bind, Text.take_byteLength_decodePrefix, Text.ofUtf8?_encode, Option.getD_some,
        String.toList_ofList]
      rfl

/-- Each pair has its two bytes, whichever of them counts more. -/
theorem utf16Prefix_eq {order : UInt8 → UInt8 → Nat} {units : Bytes → List Nat}
    (none : units [] = []) (single : ∀ b, units [b] = [])
    (pair : ∀ a b rest, units (a :: b :: rest) = order a b :: units rest) (bytes : Bytes) :
    utf16Prefix order bytes = .ok (decodeUnits (units bytes)) := by
  have read : (pairs bytes).mapM (unit order) = .ok (units bytes) := by
    fun_induction pairs bytes with
    | case1 a b rest ih =>
        rw [List.mapM_cons, ih, pair]
        rfl
    | case2 bytes short =>
        match bytes with
        | [] => rw [none]; rfl
        | [b] => rw [single]; rfl
        | a :: b :: rest => exact (short a b rest rfl).elim
  rw [utf16Prefix, read]
  rfl

theorem decodeMarked_eq (bytes : Bytes) : decodeMarked bytes = .ok (Xml.decodeMarked bytes) := by
  unfold Xml.decodeMarked
  split
  · exact utf8Prefix_eq _
  · exact utf16Prefix_eq rfl (fun _ => rfl) (fun _ _ _ => rfl) _
  · exact utf16Prefix_eq rfl (fun _ => rfl) (fun _ _ _ => rfl) _
  · rename_i utf8 bigEndian littleEndian
    rw [decodeMarked]
    · exact utf8Prefix_eq _
    · exact utf8
    · exact bigEndian
    · exact littleEndian

/-- **No slice of a document or of its text is out of bounds**, and what is read of it by slices is
its text. -/
theorem decode_eq (data : Bytes) : decode data = .ok (Xml.decode data) := by
  have window : data.take (min data.length scanLimit) = data.take scanLimit := by
    rw [Nat.min_comm, ← List.take_take, List.take_length]
  rw [decode, Text.sliceBytes_zero (Nat.min_le_left _ _), Outcome.ok_bind, window, decodeMarked_eq,
    Outcome.ok_bind, Xml.decode]
  rcases Text.findChar?_cases (!isPlain ·) (Xml.decodeMarked (data.take scanLimit)) with
    ⟨none, taken, -⟩ | ⟨front, c, rest, whole, -, found, taken, -⟩
  · simp only [Bool.not_not] at taken
    rw [none, taken]
    rfl
  · simp only [Bool.not_not] at taken
    rw [found, taken, whole]
    exact Text.sliceTo_append front (c :: rest)

end Sliced

/-! ## The length of the text -/

/-- A character of UTF-16 has at least one unit, and one of UTF-8 at most four bytes. -/
theorem byteLength_decodeUnits_le (units : List Nat) :
    byteLength (decodeUnits units) ≤ 4 * units.length := by
  fun_induction decodeUnits units with
  | case1 => exact Nat.zero_le _
  | case2 u units _ ih =>
      have := (Char.ofNat u).utf8Size_le_four
      rw [Text.byteLength_cons, List.length_cons]
      omega
  | case3 => exact Nat.zero_le _
  | case4 => exact Nat.zero_le _
  | case5 u _ _ v rest _ ih =>
      have := (Char.ofNat (0x10000 + (u - 0xD800) * 0x400 + (v - 0xDC00))).utf8Size_le_four
      rw [Text.byteLength_cons, List.length_cons, List.length_cons]
      omega
  | case6 => exact Nat.zero_le _

theorem length_unitsBigEndian_le (bytes : Bytes) :
    2 * (unitsBigEndian bytes).length ≤ bytes.length := by
  fun_induction unitsBigEndian bytes with
  | case1 hi lo rest ih =>
      simp only [List.length_cons]
      omega
  | case2 => exact Nat.zero_le _

theorem length_unitsLittleEndian_le (bytes : Bytes) :
    2 * (unitsLittleEndian bytes).length ≤ bytes.length := by
  fun_induction unitsLittleEndian bytes with
  | case1 lo hi rest ih =>
      simp only [List.length_cons]
      omega
  | case2 => exact Nat.zero_le _

theorem byteLength_decodeMarked_le (bytes : Bytes) :
    byteLength (decodeMarked bytes) ≤ 2 * bytes.length := by
  unfold decodeMarked
  split
  · rename_i rest
    have := Text.byteLength_decodePrefix_le rest
    simp only [List.length_cons]
    omega
  · rename_i rest
    have := byteLength_decodeUnits_le (unitsBigEndian rest)
    have := length_unitsBigEndian_le rest
    simp only [List.length_cons]
    omega
  · rename_i rest
    have := byteLength_decodeUnits_le (unitsLittleEndian rest)
    have := length_unitsLittleEndian_le rest
    simp only [List.length_cons]
    omega
  · have := Text.byteLength_decodePrefix_le bytes
    omega

/-- **A text is at most twice as long as the window.** -/
theorem byteLength_decode_le (data : Bytes) : byteLength (decode data) ≤ 2 * scanLimit := by
  obtain ⟨stopped, whole⟩ : decode data <+: decodeMarked (data.take scanLimit) :=
    List.takeWhile_prefix isPlain
  have window : (data.take scanLimit).length ≤ scanLimit := List.length_take_le scanLimit data
  have marked := byteLength_decodeMarked_le (data.take scanLimit)
  rw [← whole, Text.byteLength_append] at marked
  omega

end MediaSniff.Xml
