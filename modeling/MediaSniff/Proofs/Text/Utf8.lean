/-
# MediaSniff.Proofs.Text.Utf8 — decoding undoes encoding

The bytes of a text are those of its characters, one after another (`encode`). A byte
string starts with a whole character exactly if it starts with the bytes of one
(`firstChar?_eq_some`), so decoding what has been encoded gives the characters back,
whatever bytes follow (`decodePrefix_encode_append`).

A byte string that is cut off decodes to a beginning of what the whole decodes to
(`decodePrefix_mono`). An ASCII byte among the bytes of a text is a character of it and
never a part of one (`ascii_mem_utf8`).
-/
import MediaSniff.Text.Utf8
import Mathlib.Data.List.Infix

set_option autoImplicit false

namespace MediaSniff.Text

/-- The bytes of characters. -/
def encode (cs : List Char) : Bytes := cs.flatMap String.utf8EncodeChar

@[simp] theorem encode_nil : encode [] = [] := rfl

@[simp] theorem encode_cons (c : Char) (cs : List Char) :
    encode (c :: cs) = String.utf8EncodeChar c ++ encode cs := rfl

theorem encode_append {cs ds : List Char} : encode (cs ++ ds) = encode cs ++ encode ds :=
  List.flatMap_append

theorem utf8_ofList (cs : List Char) : utf8 (String.ofList cs) = encode cs := by
  rw [utf8, String.toByteArray_ofList, List.utf8Encode, List.toList_data_toByteArray, encode]

theorem utf8_eq_encode (s : String) : utf8 s = encode s.toList := by
  rw [← utf8_ofList, String.ofList_toList]

/-- A text is read back from its bytes. -/
theorem ofUtf8?_utf8 (s : String) : ofUtf8? (utf8 s) = some s := by
  have bytes : (utf8 s).toByteArray = s.toByteArray := by
    rw [ByteArray.ext_iff, List.data_toByteArray, utf8, Array.toArray_toList]
  rw [ofUtf8?, bytes, String.fromUTF8?, dif_pos s.isValidUTF8]
  rfl

theorem ofUtf8?_encode (cs : List Char) : ofUtf8? (encode cs) = some (String.ofList cs) := by
  rw [← utf8_ofList, ofUtf8?_utf8]

/-- Only its own bytes are read as a text. -/
theorem utf8_of_ofUtf8? {bytes : Bytes} {s : String} (read : ofUtf8? bytes = some s) :
    utf8 s = bytes := by
  rw [ofUtf8?, String.fromUTF8?] at read
  split at read
  · cases read
    exact List.toList_data_toByteArray
  · cases read

/-! ## One character -/

/-- The bytes of an ASCII character are its code; all bytes of any other character have
their highest bit set, and none has its five highest bits set. -/
theorem mem_utf8EncodeChar {c : Char} {b : UInt8} (mem : b ∈ String.utf8EncodeChar c) :
    (c.toNat < 0x80 ∧ b.toNat = c.toNat) ∨ (0x80 ≤ c.toNat ∧ 0x80 ≤ b.toNat ∧ b.toNat < 0xF8) := by
  have code : c.val.toNat = c.toNat := rfl
  unfold String.utf8EncodeChar at mem
  simp only [code] at mem
  split at mem
  · left
    simp only [List.mem_singleton] at mem
    subst mem
    simp only [UInt8.toNat_ofNat']
    omega
  · right
    split at mem
    · simp only [List.mem_cons, List.not_mem_nil, or_false] at mem
      rcases mem with rfl | rfl <;> simp only [UInt8.toNat_ofNat'] <;> omega
    · split at mem
      · simp only [List.mem_cons, List.not_mem_nil, or_false] at mem
        rcases mem with rfl | rfl | rfl <;> simp only [UInt8.toNat_ofNat'] <;> omega
      · simp only [List.mem_cons, List.not_mem_nil, or_false] at mem
        rcases mem with rfl | rfl | rfl | rfl <;> simp only [UInt8.toNat_ofNat'] <;> omega

/-- The bytes of a character: one that begins it and others that go on. -/
theorem exists_utf8EncodeChar_cons (c : Char) :
    ∃ b bytes, String.utf8EncodeChar c = b :: bytes ∧ b.IsUTF8FirstByte ∧
      ∀ d ∈ bytes, ¬ d.IsUTF8FirstByte := by
  obtain ⟨b, bytes, spelled⟩ :=
    List.exists_cons_of_ne_nil (String.utf8EncodeChar_ne_nil (c := c))
  have first : ∀ (i : Nat) (hi : i < (b :: bytes).length),
      (b :: bytes)[i].IsUTF8FirstByte ↔ i = 0 := by
    rw [← spelled]
    exact fun i hi => UInt8.isUTF8FirstByte_getElem_utf8EncodeChar
  refine ⟨b, bytes, spelled, (first 0 (Nat.zero_lt_succ _)).2 rfl, fun d mem begins => ?_⟩
  obtain ⟨i, hi, rfl⟩ := List.mem_iff_getElem.1 mem
  exact absurd ((first (i + 1) (Nat.succ_lt_succ hi)).1 begins) (Nat.succ_ne_zero i)

/-- **A byte string starts with a whole character** if it starts with the bytes of one. -/
theorem firstChar?_eq_some {bytes : Bytes} {c : Char} :
    firstChar? bytes = some c ↔ ∃ rest, bytes = String.utf8EncodeChar c ++ rest := by
  unfold firstChar?
  constructor
  · intro found
    obtain ⟨more, split⟩ := ByteArray.exists_of_utf8DecodeChar?_eq_some found
    have start : bytes.take 4 = String.utf8EncodeChar c ++ more.data.toList := by
      simpa using congrArg (fun b : ByteArray => b.data.toList) split
    refine ⟨more.data.toList ++ bytes.drop 4, ?_⟩
    rw [← List.append_assoc, ← start, List.take_append_drop]
  · rintro ⟨rest, rfl⟩
    have short : (String.utf8EncodeChar c).length ≤ 4 := by
      rw [String.length_utf8EncodeChar]
      exact c.utf8Size_le_four
    rw [List.take_append, List.take_of_length_le short, List.toByteArray_append]
    exact ByteArray.utf8DecodeChar?_utf8EncodeChar_append

theorem firstChar?_nil : firstChar? [] = none := by
  cases found : firstChar? [] with
  | none => rfl
  | some c =>
      obtain ⟨rest, blank⟩ := firstChar?_eq_some.1 found
      exact absurd (List.append_eq_nil_iff.1 blank.symm).1 String.utf8EncodeChar_ne_nil

/-! ## Many characters -/

/-- There are no more characters than bytes. -/
theorem decodeUpTo_succ {count : Nat} {bytes : Bytes} (enough : bytes.length ≤ count) :
    decodeUpTo (count + 1) bytes = decodeUpTo count bytes := by
  induction count generalizing bytes with
  | zero =>
      obtain rfl : bytes = [] := by simpa using enough
      simp only [decodeUpTo, firstChar?_nil]
  | succ count ih =>
      rw [decodeUpTo, decodeUpTo]
      cases firstChar? bytes with
      | none => rfl
      | some c =>
          have shorter : (bytes.drop c.utf8Size).length ≤ count := by
            have := c.utf8Size_pos
            simp only [List.length_drop]
            omega
          simp only [ih shorter]

theorem decodeUpTo_eq_decodePrefix {count : Nat} {bytes : Bytes} (enough : bytes.length ≤ count) :
    decodeUpTo count bytes = decodePrefix bytes := by
  induction count, enough using Nat.le_induction with
  | base => rfl
  | succ count enough ih => rw [decodeUpTo_succ enough, ih]

theorem decodePrefix_of_firstChar?_eq_none {bytes : Bytes} (none : firstChar? bytes = none) :
    decodePrefix bytes = [] := by
  unfold decodePrefix
  cases bytes.length with
  | zero => rfl
  | succ count => rw [decodeUpTo, none]

theorem decodePrefix_encodeChar_append (c : Char) (rest : Bytes) :
    decodePrefix (String.utf8EncodeChar c ++ rest) = c :: decodePrefix rest := by
  have first : firstChar? (String.utf8EncodeChar c ++ rest) = some c :=
    firstChar?_eq_some.2 ⟨rest, rfl⟩
  have size : (String.utf8EncodeChar c).length = c.utf8Size := String.length_utf8EncodeChar c
  have long : (String.utf8EncodeChar c ++ rest).length = (c.utf8Size - 1 + rest.length) + 1 := by
    have := c.utf8Size_pos
    rw [List.length_append, size]
    omega
  rw [decodePrefix, long, decodeUpTo, first]
  simp only [← size, List.drop_left]
  rw [decodeUpTo_eq_decodePrefix (Nat.le_add_left _ _)]

/-- **Decoding undoes encoding**, whatever bytes follow. -/
theorem decodePrefix_encode_append (cs : List Char) (rest : Bytes) :
    decodePrefix (encode cs ++ rest) = cs ++ decodePrefix rest := by
  induction cs with
  | nil => rfl
  | cons c cs ih =>
      rw [encode_cons, List.append_assoc, decodePrefix_encodeChar_append, ih, List.cons_append]

theorem decodePrefix_encode (cs : List Char) : decodePrefix (encode cs) = cs := by
  have whole := decodePrefix_encode_append cs []
  rwa [List.append_nil, decodePrefix_of_firstChar?_eq_none firstChar?_nil, List.append_nil] at whole

/-- Different texts have different bytes. -/
theorem encode_inj {cs ds : List Char} : encode cs = encode ds ↔ cs = ds := by
  constructor
  · intro same
    rw [← decodePrefix_encode cs, same, decodePrefix_encode]
  · rintro rfl
    rfl

/-- A byte string is the bytes of the characters it decodes to and a rest that starts with
no character. -/
theorem exists_encode_decodePrefix (bytes : Bytes) :
    ∃ rest, bytes = encode (decodePrefix bytes) ++ rest ∧ firstChar? rest = none := by
  induction long : bytes.length using Nat.strongRecOn generalizing bytes with
  | _ n ih =>
      cases found : firstChar? bytes with
      | none => exact ⟨bytes, by rw [decodePrefix_of_firstChar?_eq_none found]; rfl, found⟩
      | some c =>
          obtain ⟨later, rfl⟩ := firstChar?_eq_some.1 found
          have shorter : later.length < n := by
            have := c.utf8Size_pos
            rw [← long, List.length_append, String.length_utf8EncodeChar]
            omega
          obtain ⟨rest, whole, stops⟩ := ih later.length shorter later rfl
          refine ⟨rest, ?_, stops⟩
          rw [decodePrefix_encodeChar_append, encode_cons, List.append_assoc, ← whole]

theorem encode_decodePrefix_isPrefix (bytes : Bytes) : encode (decodePrefix bytes) <+: bytes := by
  obtain ⟨rest, whole, -⟩ := exists_encode_decodePrefix bytes
  exact ⟨rest, whole.symm⟩

/-- **A cut loses only the end.** What a beginning of a byte string decodes to is a
beginning of what the whole decodes to. -/
theorem decodePrefix_mono {bytes longer : Bytes} (beginning : bytes <+: longer) :
    decodePrefix bytes <+: decodePrefix longer := by
  obtain ⟨more, rfl⟩ := beginning
  obtain ⟨rest, whole, -⟩ := exists_encode_decodePrefix bytes
  refine ⟨decodePrefix (rest ++ more), ?_⟩
  rw [← decodePrefix_encode_append, ← List.append_assoc, ← whole]

/-! ## ASCII bytes -/

/-- **An ASCII byte is a character.** It is among the bytes of a text exactly if its
character is in the text. -/
theorem ascii_mem_encode {b : UInt8} {c : Char} (code : b.toNat = c.toNat) (ascii : c.toNat < 0x80)
    {cs : List Char} : b ∈ encode cs ↔ c ∈ cs := by
  rw [encode, List.mem_flatMap]
  constructor
  · rintro ⟨d, mem, byte⟩
    have same : d.toNat = c.toNat := by
      have := mem_utf8EncodeChar byte
      omega
    rwa [← Char.toNat_inj.1 same]
  · intro mem
    refine ⟨c, mem, ?_⟩
    obtain ⟨first, rest, spelled⟩ :=
      List.exists_cons_of_ne_nil (String.utf8EncodeChar_ne_nil (c := c))
    have byte : first ∈ String.utf8EncodeChar c := spelled ▸ List.mem_cons_self
    have same : first.toNat = b.toNat := by
      have := mem_utf8EncodeChar byte
      omega
    rwa [← UInt8.toNat_inj.1 same]

theorem ascii_mem_utf8 {b : UInt8} {c : Char} (code : b.toNat = c.toNat) (ascii : c.toNat < 0x80)
    {s : String} : b ∈ utf8 s ↔ c ∈ s.toList := by
  rw [utf8_eq_encode, ascii_mem_encode code ascii]

end MediaSniff.Text
