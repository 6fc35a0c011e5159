/-
# MediaSniff.Proofs.Glob.Atoms — patterns in characters

A pattern is matched byte by byte and lowercased character by character, so what lowercasing
does to a rule has to be said of the pattern in characters. Its text is a star at one end, if
there is one, and a row of atoms: characters that stand for themselves, and bracket
expressions (`written`). A bracket pattern that compiles is spelled by its atoms again, and
each of its bracket expressions has been read (`compile_written`).

What the text of a row of atoms spells, the atoms take one after another (`spells_spell`), each
a fixed number of bytes. So the star leaves one part of a name to the atoms, which is known
from their width alone (`Anchor.window`), and the language of a pattern is what its atoms take
there (`language_spell`).
-/
import MediaSniff.Proofs.Glob.Reading
import MediaSniff.Proofs.Glob.Spelling

set_option autoImplicit false

namespace MediaSniff.Glob

/-- A piece of a pattern in characters: one that stands for itself, or a bracket expression. -/
inductive Atom where
  | char (c : Char)
  | bracket (content : List Char)
  deriving DecidableEq, Repr

namespace Atom

/-- How an atom is written. -/
def text : Atom → List Char
  | char c => [c]
  | bracket content => '[' :: (content ++ [']'])

/-- How many bytes an atom takes. -/
def width : Atom → Nat
  | char c => c.utf8Size
  | bracket _ => 1

/-- The content of an atom that is a bracket expression. -/
def content? : Atom → Option (List Char)
  | char _ => none
  | bracket content => some content

/-- An atom of which the star and the brackets are no part. -/
def Plain : Atom → Prop
  | char c => Glob.Plain [c]
  | bracket content => Glob.Plain content

/-- The bytes that an atom takes. -/
def Fits : Atom → Bytes → Prop
  | char c, taken => taken = String.utf8EncodeChar c
  | bracket content, taken => ∃ b, InClass (Text.encode content) b ∧ taken = [b]

theorem Fits.length {a : Atom} {taken : Bytes} (fits : a.Fits taken) :
    taken.length = a.width := by
  cases a with
  | char c =>
      rw [Fits] at fits
      rw [fits, String.length_utf8EncodeChar, width]
  | bracket content =>
      obtain ⟨b, -, rfl⟩ := fits
      rfl

end Atom

/-! ## Rows of atoms -/

/-- How atoms are written. -/
def spell (atoms : List Atom) : List Char := atoms.flatMap Atom.text

/-- How many bytes atoms take. -/
def width : List Atom → Nat
  | [] => 0
  | a :: atoms => a.width + width atoms

/-- Atoms take bytes one after another. -/
def Fits : List Atom → Bytes → Prop
  | [], taken => taken = []
  | a :: atoms, taken => ∃ front back, a.Fits front ∧ Fits atoms back ∧ taken = front ++ back

theorem Fits.length {atoms : List Atom} {taken : Bytes} (fits : Fits atoms taken) :
    taken.length = width atoms := by
  induction atoms generalizing taken with
  | nil =>
      rw [Fits] at fits
      rw [fits]
      rfl
  | cons a atoms ih =>
      obtain ⟨front, back, here, later, rfl⟩ := fits
      rw [List.length_append, here.length, ih later, width]

theorem width_append (atoms atoms' : List Atom) :
    width (atoms ++ atoms') = width atoms + width atoms' := by
  induction atoms with
  | nil => exact (Nat.zero_add _).symm
  | cons a atoms ih => rw [List.cons_append, width, width, ih, Nat.add_assoc]

/-- Rows that follow each other take bytes that follow each other. -/
theorem fits_append {atoms atoms' : List Atom} {front back : Bytes}
    (long : front.length = width atoms) :
    Fits (atoms ++ atoms') (front ++ back) ↔ Fits atoms front ∧ Fits atoms' back := by
  induction atoms generalizing front with
  | nil =>
      obtain rfl := List.length_eq_zero_iff.1 long
      exact (and_iff_right rfl).symm
  | cons a atoms ih =>
      rw [width] at long
      rw [List.cons_append, Fits, Fits]
      constructor
      · rintro ⟨first, rest, here, later, whole⟩
        obtain ⟨more, rfl⟩ : ∃ more, front = first ++ more := by
          have fewer : first.length ≤ front.length := by
            rw [here.length, long]
            exact Nat.le_add_right _ _
          obtain ⟨more, same⟩ := List.prefix_of_prefix_length_le
            (whole ▸ List.prefix_append first rest) (List.prefix_append front back) fewer
          exact ⟨more, same.symm⟩
        rw [List.append_assoc] at whole
        rw [← List.append_cancel_left whole] at later
        rw [List.length_append, here.length] at long
        obtain ⟨fits, fits'⟩ := (ih (Nat.add_left_cancel long)).1 later
        exact ⟨⟨first, more, here, fits, rfl⟩, fits'⟩
      · rintro ⟨⟨first, more, here, fits, rfl⟩, fits'⟩
        refine ⟨first, more ++ back, here, (ih fits.length).2 ⟨fits, fits'⟩, ?_⟩
        exact List.append_assoc first more back

/-- Atoms that stand for themselves take the bytes of their characters. -/
theorem fits_chars {cs : List Char} {taken : Bytes} :
    Fits (cs.map .char) taken ↔ taken = Text.encode cs := by
  induction cs generalizing taken with
  | nil => exact Iff.rfl
  | cons c cs ih =>
      rw [List.map_cons, Fits, Text.encode_cons]
      simp only [Atom.Fits, ih]
      constructor
      · rintro ⟨front, back, rfl, rfl, rfl⟩
        rfl
      · rintro rfl
        exact ⟨_, _, rfl, rfl, rfl⟩

theorem fits_bracket {content : List Char} {taken : Bytes} :
    Fits [.bracket content] taken ↔ ∃ b, InClass (Text.encode content) b ∧ taken = [b] := by
  constructor
  · rintro ⟨front, back, ⟨b, mem, rfl⟩, nothing, rfl⟩
    rw [Fits] at nothing
    exact ⟨b, mem, by rw [nothing, List.append_nil]⟩
  · rintro ⟨b, mem, rfl⟩
    exact ⟨[b], [], ⟨b, mem, rfl⟩, rfl, rfl⟩

/-- **What a row of atoms spells**, the atoms take. -/
theorem spells_spell {atoms : List Atom} (plain : ∀ a ∈ atoms, a.Plain) {taken : Bytes} :
    Spells (Text.encode (spell atoms)) taken ↔ Fits atoms taken := by
  induction atoms generalizing taken with
  | nil => exact spells_of_plain nofun
  | cons a atoms ih =>
      obtain ⟨here, later⟩ := List.forall_mem_cons.1 plain
      rw [spell, List.flatMap_cons, ← spell, Text.encode_append, Fits]
      cases a with
      | char c =>
          have single : Glob.Plain (Atom.char c).text := here
          rw [spells_run single.encode]
          simp only [ih later, Atom.Fits, Atom.text, Text.encode_cons, Text.encode_nil,
            List.append_nil]
          constructor
          · rintro ⟨back, rfl, fits⟩
            exact ⟨_, back, rfl, fits, rfl⟩
          · rintro ⟨_, back, rfl, fits, rfl⟩
            exact ⟨back, rfl, fits⟩
      | bracket content =>
          have closes : closeBracket ∉ Text.encode content := fun mem =>
            here.encode _ mem (by simp)
          have bytes : Text.encode (Atom.bracket content).text ++ Text.encode (spell atoms) =
              openBracket ::
                (Text.encode content ++ closeBracket :: Text.encode (spell atoms)) := by
            rw [Atom.text, Text.encode_cons, Text.encode_append, List.append_assoc,
              List.append_assoc]
            rfl
          rw [bytes, spells_openBracket, spellsOpen_run closes, spellsOpen_closeBracket,
            List.nil_append]
          simp only [ih later, Atom.Fits]
          constructor
          · rintro ⟨b, back, mem, fits, rfl⟩
            exact ⟨[b], back, ⟨b, mem, rfl⟩, fits, rfl⟩
          · rintro ⟨_, back, ⟨b, mem, rfl⟩, fits, rfl⟩
            exact ⟨b, back, mem, fits, rfl⟩

/-! ## Stars -/

/-- A text with the star that an anchor stands for, in characters. -/
def Anchor.spell : Anchor → (body : List Char) → List Char
  | .whole, body => body
  | .leading, body => body ++ ['*']
  | .trailing, body => '*' :: body

/-- A text without the star that an anchor stands for. -/
def Anchor.body : Anchor → (cs : List Char) → List Char
  | .whole, cs => cs
  | .leading, cs => cs.dropLast
  | .trailing, cs => cs.tail

/-- The part of a row that the star leaves to what takes `count` members of it. -/
def Anchor.window {α : Type} (count : Nat) : Anchor → (row : List α) → List α
  | .whole, row => row
  | .leading, row => row.take count
  | .trailing, row => row.drop (row.length - count)

theorem Anchor.map_window {α β : Type} (anchor : Anchor) (f : α → β) (count : Nat)
    (row : List α) : (anchor.window count row).map f = anchor.window count (row.map f) := by
  cases anchor <;> simp [window]

theorem Anchor.window_length {α : Type} (anchor : Anchor) (row : List α) :
    anchor.window row.length row = row := by
  cases anchor <;> simp [window]

/-- What the star has of the row stands on both sides of the part that it leaves. -/
theorem Anchor.exists_window {α : Type} (anchor : Anchor) (count : Nat) (row : List α) :
    ∃ front back, row = front ++ (anchor.window count row ++ back) := by
  cases anchor with
  | whole => exact ⟨[], [], (List.append_nil row).symm⟩
  | leading => exact ⟨[], row.drop count, (List.take_append_drop count row).symm⟩
  | trailing =>
      refine ⟨row.take (row.length - count), [], ?_⟩
      rw [List.append_nil, window, List.take_append_drop]

theorem Anchor.encode_spell (anchor : Anchor) (body : List Char) :
    Text.encode (anchor.spell body) = anchor.text (Text.encode body) := by
  cases anchor with
  | whole => rfl
  | leading => exact Text.encode_append
  | trailing => rfl

/-- The anchor of a pattern text in characters, and what it says beside the star. -/
theorem spell_body (cs : List Char) :
    (anchorOf (Text.encode cs)).1.spell ((anchorOf (Text.encode cs)).1.body cs) = cs ∧
      Text.encode ((anchorOf (Text.encode cs)).1.body cs) = (anchorOf (Text.encode cs)).2 := by
  have whole := text_anchorOf (Text.encode cs)
  have respelled := respells_encode cs
  generalize (anchorOf (Text.encode cs)).2 = body at *
  generalize (anchorOf (Text.encode cs)).1 = anchor at *
  cases anchor with
  | whole => exact ⟨rfl, whole.symm⟩
  | leading =>
      rw [← whole, Anchor.text] at respelled
      obtain ⟨cs', rfl, -⟩ := respelled.exists_of_concat_star
      have starred : Text.encode (cs' ++ ['*']) = Text.encode cs' ++ [star] := Text.encode_append
      rw [starred, Anchor.text] at whole
      rw [Anchor.body, List.dropLast_concat]
      exact ⟨rfl, (List.append_cancel_right whole).symm⟩
  | trailing =>
      rw [← whole, Anchor.text] at respelled
      obtain ⟨cs', rfl, -⟩ := respelled.exists_of_star_cons
      exact ⟨rfl, (List.cons.inj whole).2.symm⟩

/-- **The language of a row of atoms beside a star** is what the atoms take of the part that
the star leaves. -/
theorem language_spell {anchor : Anchor} {atoms : List Atom} (plain : ∀ a ∈ atoms, a.Plain)
    (starless : '*' ∉ spell atoms) {subject : Bytes} :
    Language (Text.encode (anchor.spell (spell atoms))) subject ↔
      Fits atoms (anchor.window (width atoms) subject) := by
  have starless : star ∉ Text.encode (spell atoms) := by
    rwa [Text.ascii_mem_encode (c := '*') rfl (by decide)]
  rw [anchor.encode_spell]
  cases anchor with
  | whole => rw [Anchor.text, language_whole starless, spells_spell plain, Anchor.window]
  | leading =>
      rw [Anchor.text, language_leading starless, Anchor.window]
      simp only [spells_spell plain]
      constructor
      · rintro ⟨taken, any, fits, rfl⟩
        rwa [← fits.length, List.take_left]
      · intro fits
        exact ⟨_, _, fits, (List.take_append_drop _ _).symm⟩
  | trailing =>
      rw [Anchor.text, language_trailing starless, Anchor.window]
      simp only [spells_spell plain]
      constructor
      · rintro ⟨any, taken, fits, rfl⟩
        rwa [List.length_append, ← fits.length, Nat.add_sub_cancel, List.drop_left]
      · intro fits
        exact ⟨_, _, fits, (List.take_append_drop _ _).symm⟩

/-! ## Reading a pattern -/

/-- The atoms of a text. `content` is what has been read of an open bracket expression,
reversed. -/
def Atom.read : (cs : List Char) → (content : Option (List Char)) → List Atom
  | [], none => []
  | [], some content => [.bracket content.reverse]
  | c :: rest, none =>
      if c = '[' then Atom.read rest (some []) else .char c :: Atom.read rest none
  | c :: rest, some content =>
      if c = ']' then .bracket content.reverse :: Atom.read rest none
      else Atom.read rest (some (c :: content))

/-- The end that the star of a pattern stands for, and the atoms of the rest. -/
def written (pattern : String) : Anchor × List Atom :=
  let anchor := (anchorOf (Text.utf8 pattern)).1
  (anchor, Atom.read (anchor.body pattern.toList) none)

/-- The contents of the bracket expressions of a pattern. -/
def brackets (pattern : String) : List (List Char) := (written pattern).2.filterMap Atom.content?

/-- An atom that a scan has taken over: it is plain, and if it is a bracket expression, that has
been read. -/
structure Scanned (text : String) (a : Atom) : Prop where
  plain : a.Plain
  read : ∀ content, a = .bracket content →
    ∃ s, bracketSegment text (Text.encode content) = .ok s

theorem encode_reverse_cons (c : Char) (content : List Char) :
    (Text.encode (c :: content).reverse).reverse =
      (String.utf8EncodeChar c).reverse ++ (Text.encode content.reverse).reverse := by
  rw [List.reverse_cons, Text.encode_append, List.reverse_append, Text.encode_cons,
    Text.encode_nil, List.append_nil]

/-- **What a scan accepts is spelled by its atoms**, all of which it has taken over. -/
theorem scan_atoms {text : String} {cs : List Char} (starless : '*' ∉ cs) {run : Bytes}
    (content : Option (List Char)) (inside : ∀ read ∈ content, Plain read)
    {segments : List Segment} (done : scan text (Text.encode cs) run
      (content.map fun read => (Text.encode read.reverse).reverse) = .ok segments) :
    spell (Atom.read cs content) = (content.elim [] fun read => '[' :: read.reverse) ++ cs ∧
      ∀ a ∈ Atom.read cs content, Scanned text a := by
  induction cs generalizing run content segments with
  | nil =>
      cases content with
      | none => exact ⟨rfl, by simp [Atom.read]⟩
      | some read => cases done
  | cons c cs ih =>
      have starless' : '*' ∉ cs := fun mem => starless (List.mem_cons_of_mem c mem)
      have notStar : c ≠ '*' := fun same => starless (same ▸ List.mem_cons_self)
      by_cases opening : c = '['
      · rw [opening] at done ⊢
        cases content with
        | none => exact ih starless' (some []) (by simp [Plain]) done
        | some read => cases done
      · by_cases closing : c = ']'
        · rw [closing] at done ⊢
          cases content with
          | none => cases done
          | some read =>
              have closed : scan text (closeBracket :: Text.encode cs) run
                  (some (Text.encode read.reverse).reverse) = .ok segments := done
              rw [scan, if_neg (by decide), if_pos rfl, List.reverse_reverse] at closed
              obtain ⟨segment, bracket, closed⟩ := Outcome.bind_eq_ok.1 closed
              obtain ⟨later, scanned, -⟩ := Outcome.bind_eq_ok.1 closed
              obtain ⟨spelled, all⟩ := ih starless' none (by simp) scanned
              have plain : Plain read.reverse := fun d mem =>
                inside read rfl d (List.mem_reverse.1 mem)
              rw [Atom.read, if_pos rfl, spell, List.flatMap_cons, ← spell, spelled,
                List.forall_mem_cons]
              refine ⟨by simp [Atom.text], ⟨plain, ?_⟩, all⟩
              rintro content ⟨⟩
              exact ⟨segment, bracket⟩
        · have plain : Plain [c] := by
            simpa [Plain] using ⟨notStar, opening, closing⟩
          rw [Text.encode_cons, ← List.append_nil (String.utf8EncodeChar c),
            ← Text.encode_nil, ← Text.encode_cons, scan_run text plain.encode] at done
          cases content with
          | none =>
              obtain ⟨spelled, all⟩ := ih starless' none (by simp) done
              rw [Atom.read, if_neg opening, spell, List.flatMap_cons, ← spell, spelled,
                List.forall_mem_cons]
              refine ⟨rfl, ⟨plain, fun content same => ?_⟩, all⟩
              cases same
          | some read =>
              have inside' : Plain (c :: read) := by
                intro d mem
                rcases List.mem_cons.1 mem with rfl | mem
                · exact plain d List.mem_cons_self
                · exact inside read rfl d mem
              rw [Option.map_some, Option.elim_some, Text.encode_cons, Text.encode_nil,
                List.append_nil, ← encode_reverse_cons] at done
              obtain ⟨spelled, all⟩ := ih starless' (some (c :: read))
                (by simpa using inside') done
              rw [Atom.read, if_neg closing, spelled]
              exact ⟨by simp, all⟩

/-- **A bracket pattern that compiles** is spelled by what is read of it. -/
theorem compile_written {pattern : String} (opening : '[' ∈ pattern.toList) {weight : Nat}
    {owner : TypeId} {g : Glob} (compiled : compile pattern true weight owner = .ok g) :
    pattern.toList = (written pattern).1.spell (spell (written pattern).2) ∧
      '*' ∉ spell (written pattern).2 ∧ ∀ a ∈ (written pattern).2, Scanned pattern a := by
  obtain ⟨-, -, shape, done, -⟩ := compile_eq_ok.1 compiled
  rw [if_pos rfl, shapeOf] at done
  have bracket : openBracket ∈ Text.utf8 pattern :=
    (Text.ascii_mem_utf8 (c := '[') rfl (by decide)).2 opening
  rw [if_pos (by rw [List.contains_iff_mem.2 bracket, Bool.true_or])] at done
  cases read : bracketPattern pattern with
  | error cause =>
      rw [read] at done
      cases done
  | ok p =>
      obtain ⟨whole, bytes⟩ := spell_body pattern.toList
      have scanned := scan_of_bracketPattern read
      have starless : star ∉ (anchorOf (Text.utf8 pattern)).2 := by
        rw [bracketPattern] at read
        dsimp only at read
        split at read
        · cases read
        · rename_i starless
          simpa using starless
      rw [Text.utf8_eq_encode, ← bytes] at scanned starless
      rw [Text.ascii_mem_encode (c := '*') rfl (by decide)] at starless
      obtain ⟨spelled, all⟩ := scan_atoms starless none (by simp) scanned
      rw [Option.elim_none, List.nil_append] at spelled
      rw [written, Text.utf8_eq_encode]
      dsimp only
      rw [spelled, whole]
      exact ⟨rfl, starless, all⟩

end MediaSniff.Glob
