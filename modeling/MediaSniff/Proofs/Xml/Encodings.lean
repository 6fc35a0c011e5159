/-
# MediaSniff.Proofs.Xml.Encodings — one text in four encodings

A text can be written in UTF-8, with or without a byte-order mark, and in UTF-16 in either
byte order. UTF-16 writes a character below U+10000 as one unit and any other as two
surrogates (`encodeUnits`), and reading gives the characters back (`decodeUnits_encodeUnits`).

All four show the same pieces of markup, those of the text up to the first character that
may not stand in it (`markups_decode_of_encoding`). So the classification by the root element
does not depend on the encoding (`classify_encodings`). A text whose first character is
itself the mark is no exception: what is lost of it in UTF-8 is no markup.
-/
import MediaSniff.Proofs.Xml.Decoding
import MediaSniff.Xml.RootTable

set_option autoImplicit false

namespace MediaSniff.Xml

/-! ## Encoding -/

/-- The UTF-16 units of a character. -/
def encodeUnitsOfChar (c : Char) : List Nat :=
  if c.toNat < 0x10000 then [c.toNat]
  else [0xD800 + (c.toNat - 0x10000) / 0x400, 0xDC00 + (c.toNat - 0x10000) % 0x400]

/-- The UTF-16 units of characters. -/
def encodeUnits (cs : List Char) : List Nat := cs.flatMap encodeUnitsOfChar

/-- Units as bytes, the more significant byte first. -/
def bytesBigEndian (units : List Nat) : Bytes :=
  units.flatMap fun u => [UInt8.ofNat (u / 256), UInt8.ofNat (u % 256)]

/-- Units as bytes, the less significant byte first. -/
def bytesLittleEndian (units : List Nat) : Bytes :=
  units.flatMap fun u => [UInt8.ofNat (u % 256), UInt8.ofNat (u / 256)]

/-- A text in UTF-8 without and with a byte-order mark, and in UTF-16 of either byte order. -/
def encodings (text : String) : List Bytes :=
  [Text.utf8 text,
   [0xEF, 0xBB, 0xBF] ++ Text.utf8 text,
   [0xFE, 0xFF] ++ bytesBigEndian (encodeUnits text.toList),
   [0xFF, 0xFE] ++ bytesLittleEndian (encodeUnits text.toList)]

/-! ## Reading back -/

theorem lt_of_mem_encodeUnits {cs : List Char} {u : Nat} (mem : u ∈ encodeUnits cs) :
    u < 0x10000 := by
  obtain ⟨c, -, unit⟩ := List.mem_flatMap.1 mem
  have valid : c.toNat < 0xD800 ∨ 0xDFFF < c.toNat ∧ c.toNat < 0x110000 := c.valid
  unfold encodeUnitsOfChar at unit
  split at unit
  · rename_i single
    rwa [List.mem_singleton.1 unit]
  · simp only [List.mem_cons, List.not_mem_nil, or_false] at unit
    omega

/-- A unit is told by its two bytes. -/
theorem toNat_bytes {u : Nat} (small : u < 0x10000) :
    (UInt8.ofNat (u / 256)).toNat * 256 + (UInt8.ofNat (u % 256)).toNat = u := by
  simp only [UInt8.toNat_ofNat']
  omega

theorem unitsBigEndian_bytes {units : List Nat} (small : ∀ u ∈ units, u < 0x10000) :
    unitsBigEndian (bytesBigEndian units) = units := by
  induction units with
  | nil => rfl
  | cons u units ih =>
      obtain ⟨here, later⟩ := List.forall_mem_cons.1 small
      show _ :: unitsBigEndian (bytesBigEndian units) = u :: units
      rw [toNat_bytes here, ih later]

theorem unitsLittleEndian_bytes {units : List Nat} (small : ∀ u ∈ units, u < 0x10000) :
    unitsLittleEndian (bytesLittleEndian units) = units := by
  induction units with
  | nil => rfl
  | cons u units ih =>
      obtain ⟨here, later⟩ := List.forall_mem_cons.1 small
      show _ :: unitsLittleEndian (bytesLittleEndian units) = u :: units
      rw [toNat_bytes here, ih later]

theorem decodeUnits_encodeChar_append (c : Char) (units : List Nat) :
    decodeUnits (encodeUnitsOfChar c ++ units) = c :: decodeUnits units := by
  have valid : c.toNat < 0xD800 ∨ 0xDFFF < c.toNat ∧ c.toNat < 0x110000 := c.valid
  unfold encodeUnitsOfChar
  split
  · rw [List.singleton_append, decodeUnits_single, Char.ofNat_toNat]
    simp only [Bool.or_eq_true, decide_eq_true_eq]
    omega
  · rw [List.cons_append, List.singleton_append, decodeUnits_pair]
    · have value : 0x10000 + (0xD800 + (c.toNat - 0x10000) / 0x400 - 0xD800) * 0x400 +
          (0xDC00 + (c.toNat - 0x10000) % 0x400 - 0xDC00) = c.toNat := by
        omega
      rw [value, Char.ofNat_toNat]
    · simp only [Bool.or_eq_true, decide_eq_true_eq]
      omega
    · omega
    · simp only [Bool.and_eq_true, decide_eq_true_eq]
      omega

/-- **Reading UTF-16 undoes writing it.** -/
theorem decodeUnits_encodeUnits (cs : List Char) : decodeUnits (encodeUnits cs) = cs := by
  induction cs with
  | nil => rfl
  | cons c cs ih =>
      show decodeUnits (encodeUnitsOfChar c ++ encodeUnits cs) = c :: cs
      rw [decodeUnits_encodeChar_append, ih]

/-! ## The same pieces, the same answer -/

theorem decode_of_fits {data : Bytes} (fits : data.length ≤ scanLimit) :
    decode data = (decodeMarked data).takeWhile isPlain := by
  rw [decode, List.take_of_length_le fits]

/-- **Whichever the encoding**, the pieces of markup are those of the text. -/
theorem markups_decode_of_encoding {text : String} {data : Bytes} (form : data ∈ encodings text)
    (fits : data.length ≤ scanLimit) :
    markups (decode data) = markups (text.toList.takeWhile isPlain) := by
  have small : ∀ u ∈ encodeUnits text.toList, u < 0x10000 := fun _ => lt_of_mem_encodeUnits
  simp only [encodings, List.mem_cons, List.not_mem_nil, or_false] at form
  rcases form with rfl | rfl | rfl | rfl
  · rw [Text.utf8_eq_encode] at fits ⊢
    have shown := markups_decode_encode_append (Or.inr rfl) fits
    rwa [List.append_nil, List.take_nil,
      Text.decodePrefix_of_firstChar?_eq_none Text.firstChar?_nil, List.append_nil] at shown
  · rw [decode_of_fits fits, Text.utf8_eq_encode]
    show markups ((Text.decodePrefix (Text.encode text.toList)).takeWhile isPlain) = _
    rw [Text.decodePrefix_encode]
  · rw [decode_of_fits fits]
    show markups ((decodeUnits (unitsBigEndian
      (bytesBigEndian (encodeUnits text.toList)))).takeWhile isPlain) = _
    rw [unitsBigEndian_bytes small, decodeUnits_encodeUnits]
  · rw [decode_of_fits fits]
    show markups ((decodeUnits (unitsLittleEndian
      (bytesLittleEndian (encodeUnits text.toList)))).takeWhile isPlain) = _
    rw [unitsLittleEndian_bytes small, decodeUnits_encodeUnits]

/-- **The encoding does not matter.** Where all forms of a text fit the window, all are
classified alike. -/
theorem RootTable.classify_encodings (t : RootTable) (text : String)
    (fit : ∀ data ∈ encodings text, data.length ≤ scanLimit) :
    ∀ data ∈ encodings text, t.classify data = t.classify (Text.utf8 text) := by
  intro data form
  have plain : Text.utf8 text ∈ encodings text := List.mem_cons_self
  rw [classify, classify, markups_decode_of_encoding form (fit data form),
    markups_decode_of_encoding plain (fit _ plain)]

/-- A table with one root element, whose name lies beyond the characters of one unit. -/
def deseretRoots : RootTable := .ofList [⟨"", "𐐀", ⟨5⟩⟩] ⟨⟨0⟩, ⟨1⟩, ⟨2⟩, ⟨3⟩, ⟨4⟩⟩

/-- A document of that kind that starts with the mark character. -/
def deseretText : String := "\uFEFF<!-- 𐐨 --><𐐀 a='>'>"

/-- The root element is found in all four forms. -/
theorem deseretText_encodings :
    (∀ data ∈ encodings deseretText, data.length ≤ scanLimit) ∧
      ∀ data ∈ encodings deseretText, deseretRoots.classify data = ⟨5⟩ := by
  have fit : ∀ data ∈ encodings deseretText, data.length ≤ scanLimit := by decide +kernel
  refine ⟨fit, fun data form => ?_⟩
  rw [RootTable.classify_encodings deseretRoots deseretText fit data form]
  decide +kernel

end MediaSniff.Xml
