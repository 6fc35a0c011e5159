/-
# MediaSniff.Proofs.Text.Tracks — the bytes of a text beside its lowercase form

A pattern takes single bytes of a name, while lowercasing works on whole characters and may
change how many bytes they have. A track is a byte of a text with what stands in its place
when the text is lowercased (`tracks`): the bytes of a character stand one for one beside
those of its lowercase form, and the last of them has all that are left. So the tracks of a
text spell the text (`byte_tracks`) and its lowercase form (`lowered_tracks`), and a part of
the tracks is a part of both.

A pattern may leave off within a character. But the first byte of a character is never one that
goes on with another, so where the bytes of a character stand among the tracks, the text has
that character (`IsEnd.lowered_of_byte`). An ASCII byte has one byte beside it
(`lowered_of_ascii`).
-/
import MediaSniff.Proofs.Text.FinalSigma
import MediaSniff.Proofs.Text.Runs

set_option autoImplicit false

namespace MediaSniff.Text

/-- A byte of a text and what stands in its place in the lowercase form. -/
structure Track where
  byte : UInt8
  lowered : Bytes
  deriving DecidableEq, Repr

/-- Bytes beside others, one for one. The last has all that are left. -/
def beside : (bytes lowered : Bytes) → List Track
  | [], _ => []
  | [b], lowered => [⟨b, lowered⟩]
  | b :: c :: bytes, [] => ⟨b, []⟩ :: beside (c :: bytes) []
  | b :: c :: bytes, l :: lowered => ⟨b, [l]⟩ :: beside (c :: bytes) lowered

/-- The tracks of a text that stands behind `before`, nearest first. -/
def tracks (before : List Char) : List Char → List Track
  | [] => []
  | c :: rest =>
      beside (String.utf8EncodeChar c) (encode (lowerWithin before rest [c])) ++
        tracks (c :: before) rest

/-! ## Both texts -/

theorem byte_beside (bytes lowered : Bytes) :
    (beside bytes lowered).map Track.byte = bytes := by
  fun_induction beside bytes lowered with
  | case1 => rfl
  | case2 => rfl
  | case3 b c bytes ih => rw [List.map_cons, ih]
  | case4 b c bytes l lowered ih => rw [List.map_cons, ih]

theorem lowered_beside {bytes : Bytes} (written : bytes ≠ []) (lowered : Bytes) :
    (beside bytes lowered).flatMap Track.lowered = lowered := by
  fun_induction beside bytes lowered with
  | case1 => exact absurd rfl written
  | case2 b lowered => rw [List.flatMap_singleton]
  | case3 b c bytes ih => rw [List.flatMap_cons, ih (List.cons_ne_nil _ _), List.nil_append]
  | case4 b c bytes l lowered ih =>
      rw [List.flatMap_cons, ih (List.cons_ne_nil _ _), List.singleton_append]

theorem byte_tracks (before cs : List Char) : (tracks before cs).map Track.byte = encode cs := by
  induction cs generalizing before with
  | nil => rfl
  | cons c rest ih => rw [tracks, List.map_append, byte_beside, ih, encode_cons]

theorem lowered_tracks (before cs : List Char) :
    (tracks before cs).flatMap Track.lowered = encode (lowerAfter before cs) := by
  induction cs generalizing before with
  | nil => rfl
  | cons c rest ih =>
      have parted : lowerAfter before (c :: rest) =
          lowerWithin before rest [c] ++ lowerAfter (c :: before) rest :=
        @lowerAfter_append before [c] rest
      rw [tracks, List.flatMap_append, lowered_beside String.utf8EncodeChar_ne_nil, ih, parted,
        encode_append]

/-! ## Where characters begin -/

/-- Tracks of bytes that go on with a character. -/
def GoOn (ts : List Track) : Prop := ∀ t ∈ ts, ¬ t.byte.IsUTF8FirstByte

theorem exists_tracks_cons (before rest : List Char) (c : Char) :
    ∃ t later, tracks before (c :: rest) = t :: (later ++ tracks (c :: before) rest) ∧
      t.byte.IsUTF8FirstByte ∧ GoOn later := by
  obtain ⟨b, bytes, spelled, begins, goOn⟩ := exists_utf8EncodeChar_cons c
  have both := byte_beside (String.utf8EncodeChar c) (encode (lowerWithin before rest [c]))
  rw [tracks]
  generalize beside (String.utf8EncodeChar c) (encode (lowerWithin before rest [c])) = ts at *
  rw [spelled] at both
  obtain ⟨t, later, rfl, rfl, rfl⟩ := List.map_eq_cons_iff.1 both
  exact ⟨t, later, rfl, begins, fun t mem => goOn _ (List.mem_map_of_mem mem)⟩

/-- Tracks at the end of those of a text, which may begin within a character. -/
def IsEnd (ts : List Track) : Prop :=
  ∃ left before cs, GoOn left ∧ ts = left ++ tracks before cs

theorem isEnd_tracks (before cs : List Char) : IsEnd (tracks before cs) :=
  ⟨[], before, cs, nofun, rfl⟩

theorem IsEnd.tail {t : Track} {ts : List Track} (ending : IsEnd (t :: ts)) : IsEnd ts := by
  obtain ⟨left, before, cs, goOn, whole⟩ := ending
  cases left with
  | cons t' left =>
      exact ⟨left, before, cs, fun t mem => goOn t (List.mem_cons_of_mem t' mem),
        (List.cons.inj whole).2⟩
  | nil =>
      cases cs with
      | nil => cases whole
      | cons c cs =>
          obtain ⟨t', later, parted, -, goOn'⟩ := exists_tracks_cons before cs c
          rw [List.nil_append, parted] at whole
          exact ⟨later, c :: before, cs, goOn', (List.cons.inj whole).2⟩

theorem IsEnd.of_append {front ts : List Track} (ending : IsEnd (front ++ ts)) : IsEnd ts := by
  induction front with
  | nil => exact ending
  | cons t front ih => exact ih ending.tail

/-- The tracks of the first character, and those of the others. -/
theorem tracks_cons_split (before cs : List Char) (c : Char) :
    ((tracks before (c :: cs)).take (String.utf8EncodeChar c).length).map Track.byte =
        String.utf8EncodeChar c ∧
      (tracks before (c :: cs)).drop (String.utf8EncodeChar c).length =
        tracks (c :: before) cs := by
  have long := congrArg List.length
    (byte_beside (String.utf8EncodeChar c) (encode (lowerWithin before cs [c])))
  rw [List.length_map] at long
  rw [tracks, ← long, List.take_left, List.drop_left]
  exact ⟨byte_beside _ _, rfl⟩

/-- **Where the bytes of a character stand, the text has that character**: what goes on with an
earlier one does not begin so. -/
theorem IsEnd.lowered_of_byte {front ts : List Track} (ending : IsEnd (front ++ ts)) {c : Char}
    (spelled : front.map Track.byte = String.utf8EncodeChar c) :
    ∃ before after, front.flatMap Track.lowered = encode (lowerWithin before after [c]) := by
  obtain ⟨left, before, cs, goOn, whole⟩ := ending
  obtain ⟨b, bytes, encoded, begins, -⟩ := exists_utf8EncodeChar_cons c
  obtain rfl : left = [] := by
    cases left with
    | nil => rfl
    | cons t left =>
        rw [encoded] at spelled
        obtain ⟨t', front, rfl, rfl, -⟩ := List.map_eq_cons_iff.1 spelled
        rw [List.cons_append, List.cons_append, List.cons.injEq] at whole
        exact absurd (whole.1 ▸ begins) (goOn t List.mem_cons_self)
  rw [List.nil_append] at whole
  have texts := congrArg (List.map Track.byte) whole
  rw [byte_tracks, List.map_append, spelled] at texts
  obtain ⟨cs', rfl⟩ : ∃ cs', cs = c :: cs' := by
    have decoded := congrArg decodePrefix texts
    rw [decodePrefix_encode, decodePrefix_encodeChar_append] at decoded
    exact ⟨_, decoded.symm⟩
  rw [tracks] at whole
  have long : front.length =
      (beside (String.utf8EncodeChar c) (encode (lowerWithin before cs' [c]))).length := by
    rw [← List.length_map Track.byte, spelled, ← List.length_map Track.byte, byte_beside]
  rw [(List.append_inj whole long).1]
  exact ⟨before, cs', lowered_beside String.utf8EncodeChar_ne_nil _⟩

/-! ## ASCII -/

theorem toNat_toUInt8 {c : Char} (ascii : c.toNat < 0x80) : c.toUInt8.toNat = c.toNat :=
  (UInt32.toNat_toUInt8 c.val).trans (Nat.mod_eq_of_lt (Nat.lt_trans ascii (by decide)))

/-- An ASCII capital made small; any other byte as it is. -/
def lowerByte (b : UInt8) : UInt8 := if 0x41 ≤ b && b ≤ 0x5A then b + 0x20 else b

theorem encode_lowerChar_of_ascii {c : Char} (ascii : c.toNat < 0x80) :
    String.utf8EncodeChar c = [c.toUInt8] ∧ encode (lowerChar c) = [lowerByte c.toUInt8] := by
  have both := forall_ascii (p := fun c => String.utf8EncodeChar c == [c.toUInt8] &&
    encode (lowerChar c) == [lowerByte c.toUInt8]) (by decide +kernel) ascii
  simpa using both

theorem toNat_lowerByte (b : UInt8) :
    (lowerByte b).toNat =
      if 0x41 ≤ b.toNat ∧ b.toNat ≤ 0x5A then b.toNat + 0x20 else b.toNat := by
  unfold lowerByte
  simp only [Bool.and_eq_true, decide_eq_true_eq, UInt8.le_iff_toNat_le]
  split
  · rename_i capital
    have bounds : 0x41 ≤ b.toNat ∧ b.toNat ≤ 0x5A := capital
    rw [if_pos bounds, UInt8.toNat_add]
    exact Nat.mod_eq_of_lt (Nat.lt_of_le_of_lt (Nat.add_le_add_right bounds.2 _) (by decide))
  · rename_i other
    exact (if_neg other).symm

/-- An ASCII byte is a character. -/
theorem utf8EncodeChar_ofNat {b : UInt8} (ascii : b < 0x80) :
    String.utf8EncodeChar (Char.ofNat b.toNat) = [b] := by
  have small : b.toNat < 0x80 := UInt8.lt_iff_toNat_lt.1 ascii
  have valid : b.toNat.isValidChar := Or.inl (Nat.lt_trans small (by decide))
  have code : (Char.ofNat b.toNat).toNat = b.toNat := by
    rw [Char.ofNat, dif_pos valid]
    rfl
  have low : (Char.ofNat b.toNat).toNat < 0x80 := by rwa [code]
  rw [(encode_lowerChar_of_ascii low).1, List.cons.injEq, ← UInt8.toNat_inj, toNat_toUInt8 low]
  exact ⟨code, rfl⟩

/-- Text in ASCII is lowercased byte by byte. -/
theorem encode_lowerAfter_of_ascii {before cs : List Char} (ascii : ∀ c ∈ cs, c.toNat < 0x80) :
    encode (lowerAfter before cs) = (encode cs).map lowerByte := by
  induction cs generalizing before with
  | nil => rfl
  | cons c rest ih =>
      obtain ⟨here, later⟩ := List.forall_mem_cons.1 ascii
      have notSigma : c ≠ 'Σ' := by
        rintro rfl
        exact absurd here (by decide)
      obtain ⟨written, lowered⟩ := encode_lowerChar_of_ascii here
      rw [lowerAfter, if_neg notSigma, encode_append, lowered, ih later, encode_cons, written,
        List.map_append, List.map_singleton]

/-- **An ASCII byte has its small letter beside it.** -/
theorem lowered_of_ascii {before cs : List Char} {t : Track} (mem : t ∈ tracks before cs)
    (ascii : t.byte < 0x80) : t.lowered = [lowerByte t.byte] := by
  induction cs generalizing before with
  | nil => cases mem
  | cons c rest ih =>
      rw [tracks, List.mem_append] at mem
      rcases mem with here | later
      · have among := List.mem_map_of_mem (f := Track.byte) here
        rw [byte_beside] at among
        have small : c.toNat < 0x80 := by
          have low : t.byte.toNat < 0x80 := UInt8.lt_iff_toNat_lt.1 ascii
          have := mem_utf8EncodeChar among
          omega
        have notSigma : c ≠ 'Σ' := by
          rintro rfl
          exact absurd small (by decide)
        obtain ⟨written, lowered⟩ := encode_lowerChar_of_ascii small
        rw [lowerWithin_singleton, if_neg notSigma, written, lowered, beside,
          List.mem_singleton] at here
        rw [here]
      · exact ih later

end MediaSniff.Text
