/-
# MediaSniff.Proofs.Xml.Decoding — the text of a document that is cut off

A document that is cut off gives a beginning of the text of the whole
(`decode_take_mono`). This is so in each encoding: a cut within a character loses that
character and nothing else. A cut within a byte-order mark leaves bytes that start no
character, so the text is then empty, whichever encoding the mark would have told.

A document that starts with the UTF-8 bytes of a text has the pieces of markup that the text
begins with, up to the first character that may not stand there
(`markups_decode_encode_append`). The one character that is lost is a mark in front, which
is no markup.
-/
import MediaSniff.Proofs.Text.Utf8
import MediaSniff.Proofs.Xml.Markup
import MediaSniff.Xml.Decoding

set_option autoImplicit false

namespace MediaSniff.Xml

/-! ## UTF-16 units -/

theorem unitsBigEndian_mono {bytes longer : Bytes} (beginning : bytes <+: longer) :
    unitsBigEndian bytes <+: unitsBigEndian longer := by
  obtain ⟨more, rfl⟩ := beginning
  fun_induction unitsBigEndian bytes with
  | case1 hi lo rest ih => exact List.cons_prefix_cons.2 ⟨rfl, ih⟩
  | case2 => exact List.nil_prefix

theorem unitsLittleEndian_mono {bytes longer : Bytes} (beginning : bytes <+: longer) :
    unitsLittleEndian bytes <+: unitsLittleEndian longer := by
  obtain ⟨more, rfl⟩ := beginning
  fun_induction unitsLittleEndian bytes with
  | case1 lo hi rest ih => exact List.cons_prefix_cons.2 ⟨rfl, ih⟩
  | case2 => exact List.nil_prefix

/-- A unit that is no surrogate is a character. -/
theorem decodeUnits_single {u : Nat} (single : (u < 0xD800 || 0xE000 ≤ u) = true)
    (units : List Nat) : decodeUnits (u :: units) = Char.ofNat u :: decodeUnits units := by
  rw [decodeUnits.eq_def]
  simp only [if_pos single]

/-- Two surrogates, a leading and a trailing one, are a character. -/
theorem decodeUnits_pair {u v : Nat} (surrogate : ¬ (u < 0xD800 || 0xE000 ≤ u) = true)
    (leading : ¬ 0xDC00 ≤ u) (trailing : (0xDC00 ≤ v && v < 0xE000) = true) (units : List Nat) :
    decodeUnits (u :: v :: units) =
      Char.ofNat (0x10000 + (u - 0xD800) * 0x400 + (v - 0xDC00)) :: decodeUnits units := by
  rw [decodeUnits.eq_def]
  simp only [if_neg surrogate, if_neg leading, if_pos trailing]

theorem decodeUnits_mono {units longer : List Nat} (beginning : units <+: longer) :
    decodeUnits units <+: decodeUnits longer := by
  obtain ⟨more, rfl⟩ := beginning
  fun_induction decodeUnits units with
  | case1 => exact List.nil_prefix
  | case2 u units single ih =>
      rw [List.cons_append, decodeUnits_single single]
      exact List.cons_prefix_cons.2 ⟨rfl, ih⟩
  | case3 => exact List.nil_prefix
  | case4 => exact List.nil_prefix
  | case5 u surrogate leading v rest trailing ih =>
      rw [List.cons_append, List.cons_append, decodeUnits_pair surrogate leading trailing]
      exact List.cons_prefix_cons.2 ⟨rfl, ih⟩
  | case6 => exact List.nil_prefix

/-! ## Byte-order marks -/

/-- The byte-order marks of UTF-8 and of UTF-16 in its two byte orders. -/
def byteOrderMarks : List Bytes := [[0xEF, 0xBB, 0xBF], [0xFE, 0xFF], [0xFF, 0xFE]]

theorem decodeMarked_of_no_mark {bytes : Bytes}
    (unmarked : ∀ mark ∈ byteOrderMarks, ¬ mark <+: bytes) :
    decodeMarked bytes = Text.decodePrefix bytes := by
  unfold decodeMarked
  split
  · exact absurd (List.prefix_append [0xEF, 0xBB, 0xBF] _) (unmarked _ (by decide))
  · exact absurd (List.prefix_append [0xFE, 0xFF] _) (unmarked _ (by decide))
  · exact absurd (List.prefix_append [0xFF, 0xFE] _) (unmarked _ (by decide))
  · rfl

/-- A byte-order mark that is cut off starts no character. -/
theorem decodePrefix_take_mark :
    ∀ mark ∈ byteOrderMarks, ∀ n < mark.length, Text.decodePrefix (mark.take n) = [] := by
  decide +kernel

theorem decodePrefix_of_cut_mark {mark bytes : Bytes} (known : mark ∈ byteOrderMarks)
    (cut : bytes <+: mark) (part : bytes ≠ mark) : Text.decodePrefix bytes = [] := by
  have shorter : bytes.length < mark.length :=
    Nat.lt_of_le_of_ne cut.length_le fun same => part (cut.eq_of_length same)
  rw [List.prefix_iff_eq_take.1 cut]
  exact decodePrefix_take_mark mark known bytes.length shorter

/-! ## Cuts -/

/-- A cut loses only the end, also within a byte-order mark. -/
theorem decodeMarked_mono {bytes longer : Bytes} (beginning : bytes <+: longer) :
    decodeMarked bytes <+: decodeMarked longer := by
  obtain ⟨more, rfl⟩ := beginning
  by_cases utf8 : [0xEF, 0xBB, 0xBF] <+: bytes
  · obtain ⟨rest, rfl⟩ := utf8
    exact Text.decodePrefix_mono (List.prefix_append rest more)
  by_cases bigEndian : [0xFE, 0xFF] <+: bytes
  · obtain ⟨rest, rfl⟩ := bigEndian
    exact decodeUnits_mono (unitsBigEndian_mono (List.prefix_append rest more))
  by_cases littleEndian : [0xFF, 0xFE] <+: bytes
  · obtain ⟨rest, rfl⟩ := littleEndian
    exact decodeUnits_mono (unitsLittleEndian_mono (List.prefix_append rest more))
  have unmarked : ∀ mark ∈ byteOrderMarks, ¬ mark <+: bytes := by
    simp only [byteOrderMarks, List.forall_mem_cons, List.not_mem_nil, false_imp_iff,
      implies_true, and_true]
    exact ⟨utf8, bigEndian, littleEndian⟩
  rw [decodeMarked_of_no_mark unmarked]
  by_cases stays : ∀ mark ∈ byteOrderMarks, ¬ mark <+: bytes ++ more
  · rw [decodeMarked_of_no_mark stays]
    exact Text.decodePrefix_mono (List.prefix_append bytes more)
  · push Not at stays
    obtain ⟨mark, known, marked⟩ := stays
    have cut : bytes <+: mark := by
      rcases List.prefix_or_prefix_of_prefix marked (List.prefix_append bytes more) with whole | cut
      · exact absurd whole (unmarked mark known)
      · exact cut
    have part : bytes ≠ mark := fun same => unmarked mark known (same ▸ List.prefix_rfl)
    rw [decodePrefix_of_cut_mark known cut part]
    exact List.nil_prefix

theorem takeWhile_mono {α : Type} (p : α → Bool) {xs ys : List α}
    (beginning : xs <+: ys) : xs.takeWhile p <+: ys.takeWhile p := by
  obtain ⟨more, rfl⟩ := beginning
  rw [List.takeWhile_append]
  split
  · rename_i all
    have part : xs.takeWhile p <+: xs := List.takeWhile_prefix p
    rw [part.eq_of_length all]
    exact List.prefix_append xs _
  · exact List.prefix_rfl

/-- **A narrower window shows a beginning** of what a wider one shows. -/
theorem decode_take_mono (data : Bytes) {narrow wide : Nat} (le : narrow ≤ wide) :
    decode (data.take narrow) <+: decode (data.take wide) :=
  takeWhile_mono isPlain
    (decodeMarked_mono ((List.take_prefix_take_left le).take scanLimit))

/-! ## UTF-8 texts -/

/-- The character that serves as a byte-order mark. -/
def markChar : Char := '\uFEFF'

/-- A text without the mark in front of it. -/
def withoutMark (cs : List Char) : List Char :=
  match cs with
  | [] => []
  | c :: rest => if c = markChar then rest else c :: rest

/-- No text starts with a byte-order mark of UTF-16, and only a text that starts with the
mark character starts with that of UTF-8. -/
theorem not_mark_prefix_encodeChar {c : Char} (other : c ≠ markChar) (rest : Bytes) :
    ∀ mark ∈ byteOrderMarks, ¬ mark <+: String.utf8EncodeChar c ++ rest := by
  intro mark known marked
  obtain ⟨first, later, spelled⟩ :=
    List.exists_cons_of_ne_nil (String.utf8EncodeChar_ne_nil (c := c))
  have leads : first.toNat < 0xF8 := by
    have := Text.mem_utf8EncodeChar (spelled ▸ List.mem_cons_self : first ∈ String.utf8EncodeChar c)
    omega
  simp only [byteOrderMarks, List.mem_cons, List.not_mem_nil, or_false] at known
  rcases known with rfl | rfl | rfl
  · have isMark : String.utf8EncodeChar markChar <+: String.utf8EncodeChar c ++ rest := marked
    obtain ⟨more, whole⟩ := isMark
    have here : Text.firstChar? (String.utf8EncodeChar c ++ rest) = some markChar :=
      Text.firstChar?_eq_some.2 ⟨more, whole.symm⟩
    rw [Text.firstChar?_eq_some.2 ⟨rest, rfl⟩, Option.some.injEq] at here
    exact other here
  · rw [spelled, List.cons_append] at marked
    obtain rfl : 0xFE = first := (List.cons_prefix_cons.1 marked).1
    exact absurd leads (by decide)
  · rw [spelled, List.cons_append] at marked
    obtain rfl : 0xFF = first := (List.cons_prefix_cons.1 marked).1
    exact absurd leads (by decide)

theorem decodeMarked_encode_append {cs : List Char} {rest : Bytes} (text : cs ≠ [] ∨ rest = []) :
    decodeMarked (Text.encode cs ++ rest) = withoutMark cs ++ Text.decodePrefix rest := by
  cases cs with
  | nil =>
      obtain rfl : rest = [] := text.resolve_left fun some => some rfl
      rfl
  | cons c cs =>
      rw [withoutMark]
      split
      · rename_i mark
        subst mark
        exact Text.decodePrefix_encode_append cs rest
      · rename_i other
        rw [Text.encode_cons, List.append_assoc,
          decodeMarked_of_no_mark (not_mark_prefix_encodeChar other _), ← List.append_assoc,
          ← Text.encode_cons, Text.decodePrefix_encode_append]

/-- A mark in front of a text is no markup. -/
theorem markups_withoutMark (cs : List Char) (rest : List Char) :
    markups ((withoutMark cs ++ rest).takeWhile isPlain) =
      markups ((cs ++ rest).takeWhile isPlain) := by
  cases cs with
  | nil => rfl
  | cons c cs =>
      rw [withoutMark]
      split
      · rename_i mark
        subst mark
        have plain : isPlain markChar = true := by decide
        rw [List.cons_append, List.takeWhile_cons_of_pos plain, markups_of_ne (by decide)]
      · rfl

/-- **What a document in UTF-8 shows.** The pieces of a document that starts with a text are
those of the text and of what follows it in the window. -/
theorem markups_decode_encode_append {cs : List Char} {rest : Bytes} (text : cs ≠ [] ∨ rest = [])
    (fits : (Text.encode cs).length ≤ scanLimit) :
    markups (decode (Text.encode cs ++ rest)) =
      markups ((cs ++ Text.decodePrefix (rest.take (scanLimit - (Text.encode cs).length))).takeWhile
        isPlain) := by
  have window : (Text.encode cs ++ rest).take scanLimit =
      Text.encode cs ++ rest.take (scanLimit - (Text.encode cs).length) := by
    rw [List.take_append, List.take_of_length_le fits]
  have text' : cs ≠ [] ∨ rest.take (scanLimit - (Text.encode cs).length) = [] :=
    text.imp_right fun blank => by rw [blank, List.take_nil]
  rw [decode, window, decodeMarked_encode_append text', markups_withoutMark]

end MediaSniff.Xml
