/-
# MediaSniff.Proofs.Glob.Shares — what the atoms of a pattern have of a name

A rule that ignores case is compiled from the lowercased text of its pattern and tried on the
lowercased name. To tell what it makes of a name that the rule of the same pattern accepts
which heeds case, each atom is given its share, the tracks of the name that it takes (`Share`).
The atom is lowercased to some atoms, and the share to some bytes. The name is accepted if
everywhere the ones take the others (`Share.Kept`, `ignoring_accepts_iff`), provided that
nothing gets out of step: each atom has to be lowercased to as many bytes as its share.

Characters that stand for themselves never get out of step. Where a pattern asks for a
character the name has that very one, though it may have taken bracket expressions in the
middle of another to get there (`exists_of_char`).
-/
import MediaSniff.Proofs.Glob.Atoms
import MediaSniff.Proofs.Text.Tracks

set_option autoImplicit false

namespace MediaSniff.Glob

open Text (Track tracks IsEnd)

/-! ## Lowercased atoms -/

/-- What lowercasing the text of a pattern makes of an atom that stands behind `before`, nearest
first, and in front of `after`. -/
def Atom.lowerWithin (before after : List Char) : Atom → List Atom
  | .char c => (Text.lowerWithin before after [c]).map .char
  | .bracket content => [.bracket (Text.lowerAfter [] content)]

theorem spell_chars (cs : List Char) : spell (cs.map .char) = cs := by
  rw [spell, List.flatMap_map]
  exact List.flatMap_singleton' cs

theorem width_chars (cs : List Char) : width (cs.map .char) = (Text.encode cs).length :=
  (fits_chars.2 rfl).length.symm

/-- Brackets part a text: what stands between them is lowercased as if it stood alone. -/
theorem lowerWithin_bracket (before after content : List Char) :
    Text.lowerWithin before after (Atom.bracket content).text =
      (Atom.bracket (Text.lowerAfter [] content)).text := by
  have opening : ∀ beyond, Text.startsCased ('[' :: beyond) = Text.startsCased [] := fun _ =>
    Text.startsCased_cons_of_not_ignorable (by decide +kernel)
  have closing : ∀ beyond, Text.startsCased (']' :: beyond) = Text.startsCased [] := fun _ =>
    Text.startsCased_cons_of_not_ignorable (by decide +kernel)
  have inside : Text.lowerWithin ('[' :: before) (']' :: after) content =
      Text.lowerAfter [] content := by
    rw [← Text.lowerWithin_nil_after]
    exact Text.lowerWithin_congr (opening before) (closing after)
  rw [Atom.text, ← List.singleton_append, Text.lowerWithin_append, Text.lowerWithin_append,
    Text.lowerWithin_singleton, Text.lowerWithin_singleton, if_neg (by decide),
    if_neg (by decide), List.reverse_singleton, List.singleton_append, List.singleton_append,
    inside]
  rfl

theorem Atom.spell_lowerWithin (before after : List Char) (a : Atom) :
    spell (a.lowerWithin before after) = Text.lowerWithin before after a.text := by
  cases a with
  | char c => exact spell_chars _
  | bracket content =>
      rw [lowerWithin_bracket]
      exact List.flatMap_singleton _ _

theorem Atom.Plain.lowerWithin {a : Atom} (plain : a.Plain) (before after : List Char) :
    ∀ a' ∈ a.lowerWithin before after, a'.Plain := by
  intro a' mem
  cases a with
  | char c =>
      obtain ⟨d, lowered, rfl⟩ := List.mem_map.1 mem
      have single : Glob.Plain [c] := plain
      intro e same
      rw [List.mem_singleton.1 same]
      exact single.lowerWithin before after d lowered
  | bracket content =>
      rw [List.mem_singleton.1 mem]
      exact Glob.Plain.lowerAfter plain []

/-- A star parts a text. -/
theorem lowerAfter_spell (anchor : Anchor) (body : List Char) :
    Text.lowerAfter [] (anchor.spell body) = anchor.spell (Text.lowerAfter [] body) := by
  have counts : Text.isCaseIgnorable '*' ≠ true := by decide +kernel
  have caseless : Text.isCased '*' = false := by decide +kernel
  cases anchor with
  | whole => rfl
  | leading => exact Text.lowerAfter_append_cons counts caseless
  | trailing => exact @Text.lowerAfter_append_cons [] [] body '*' counts caseless

/-! ## Shares -/

/-- An atom of a pattern, what lowercasing makes of it where it stands, and the tracks of a name
that it takes. -/
structure Share where
  atom : Atom
  lowered : List Atom
  tracks : List Track
  deriving DecidableEq, Repr

/-- What stands in the lowercase form of the name in the place of a share. -/
def Share.bytes (x : Share) : Bytes := x.tracks.flatMap Track.lowered

/-- The lowercased atom takes what stands in the place of the share. -/
def Share.Kept (x : Share) : Prop := Fits x.lowered x.bytes

/-- The lowercased atom takes as many bytes as stand there. -/
def Share.InStep (x : Share) : Prop := x.bytes.length = width x.lowered

/-- The shares of atoms that stand behind `before`, nearest first. -/
def sharesOf (before : List Char) : List Atom → List Track → List Share
  | [], _ => []
  | a :: atoms, ts =>
      ⟨a, a.lowerWithin before (spell atoms), ts.take a.width⟩ ::
        sharesOf (a.text.reverse ++ before) atoms (ts.drop a.width)

/-- The shares of a name that the atoms of a pattern have, the star set aside. -/
def shares (pattern name : String) : List Share :=
  sharesOf [] (written pattern).2
    ((written pattern).1.window (width (written pattern).2) (tracks [] name.toList))

section Shares

variable {atoms : List Atom} {before : List Char} {ts : List Track} {x : Share}

/-- The lowercased pattern consists of what its atoms are lowercased to. -/
theorem spell_lowered (before : List Char) (atoms : List Atom) (ts : List Track) :
    spell ((sharesOf before atoms ts).flatMap Share.lowered) =
      Text.lowerAfter before (spell atoms) := by
  induction atoms generalizing before ts with
  | nil => rfl
  | cons a atoms ih =>
      have first : spell (a :: atoms) = a.text ++ spell atoms := rfl
      rw [sharesOf, List.flatMap_cons, spell, List.flatMap_append, ← spell, ← spell, ih,
        a.spell_lowerWithin, first, Text.lowerAfter_append]

/-- The shares are all of the tracks. -/
theorem flatMap_bytes (long : ts.length = width atoms) :
    (sharesOf before atoms ts).flatMap Share.bytes = ts.flatMap Track.lowered := by
  induction atoms generalizing before ts with
  | nil =>
      obtain rfl := List.length_eq_zero_iff.1 long
      rfl
  | cons a atoms ih =>
      rw [width] at long
      have later : (ts.drop a.width).length = width atoms := by
        rw [List.length_drop, long, Nat.add_sub_cancel_left]
      rw [sharesOf, List.flatMap_cons, ih later, Share.bytes, ← List.flatMap_append,
        List.take_append_drop]

theorem exists_lowerWithin (mem : x ∈ sharesOf before atoms ts) :
    x.atom ∈ atoms ∧ ∃ front back, x.lowered = x.atom.lowerWithin front back := by
  induction atoms generalizing before ts with
  | nil => cases mem
  | cons a atoms ih =>
      rcases List.mem_cons.1 mem with rfl | later
      · exact ⟨List.mem_cons_self, _, _, rfl⟩
      · obtain ⟨among, lowered⟩ := ih later
        exact ⟨List.mem_cons_of_mem a among, lowered⟩

/-- The first atom takes its share, and the others the rest. -/
theorem fits_cons_tracks {a : Atom} (fits : Fits (a :: atoms) (ts.map Track.byte)) :
    a.Fits ((ts.take a.width).map Track.byte) ∧ Fits atoms ((ts.drop a.width).map Track.byte) := by
  obtain ⟨front, back, here, later, whole⟩ := fits
  rw [← here.length, List.map_take, List.map_drop, whole, List.take_left, List.drop_left]
  exact ⟨here, later⟩

theorem fits_share (fits : Fits atoms (ts.map Track.byte)) (mem : x ∈ sharesOf before atoms ts) :
    x.tracks ⊆ ts ∧ x.atom.Fits (x.tracks.map Track.byte) := by
  induction atoms generalizing before ts with
  | nil => cases mem
  | cons a atoms ih =>
      obtain ⟨here, later⟩ := fits_cons_tracks fits
      rcases List.mem_cons.1 mem with rfl | mem
      · exact ⟨List.take_subset _ _, here⟩
      · obtain ⟨among, own⟩ := ih later mem
        exact ⟨List.Subset.trans among (List.drop_subset _ _), own⟩

/-- **Where the pattern asks for a character, the name has it**: the share is lowercased as that
very character is, whatever stands around it. -/
theorem exists_of_char {rest : List Track} (ending : IsEnd (ts ++ rest))
    (fits : Fits atoms (ts.map Track.byte)) (mem : x ∈ sharesOf before atoms ts) {c : Char}
    (single : x.atom = .char c) :
    ∃ front back, x.bytes = Text.encode (Text.lowerWithin front back [c]) := by
  induction atoms generalizing before ts with
  | nil => cases mem
  | cons a atoms ih =>
      obtain ⟨here, later⟩ := fits_cons_tracks fits
      rw [← List.take_append_drop a.width ts, List.append_assoc] at ending
      rcases List.mem_cons.1 mem with rfl | mem
      · obtain rfl : a = .char c := single
        exact ending.lowered_of_byte here
      · exact ih ending.of_append later mem

theorem length_bytes {xs : List Share} (inStep : ∀ x ∈ xs, x.InStep) :
    (xs.flatMap Share.bytes).length = width (xs.flatMap Share.lowered) := by
  induction xs with
  | nil => rfl
  | cons x xs ih =>
      obtain ⟨here, later⟩ := List.forall_mem_cons.1 inStep
      rw [List.flatMap_cons, List.length_append, here, ih later, List.flatMap_cons, width_append]

/-- **Atoms in step take what stands there one by one.** -/
theorem fits_flatMap {xs : List Share} (inStep : ∀ x ∈ xs, x.InStep) :
    Fits (xs.flatMap Share.lowered) (xs.flatMap Share.bytes) ↔ ∀ x ∈ xs, x.Kept := by
  induction xs with
  | nil => exact iff_of_true rfl nofun
  | cons x xs ih =>
      obtain ⟨here, later⟩ := List.forall_mem_cons.1 inStep
      rw [List.flatMap_cons, List.flatMap_cons, fits_append here, ih later, List.forall_mem_cons,
        Share.Kept]

end Shares

/-- The part that a star leaves is the same part of what is made of the row, member by
member. -/
theorem Anchor.window_flatMap {α β : Type} {anchor : Anchor} {row : List α} {f : α → List β}
    {count count' : Nat} (long : ((anchor.window count row).flatMap f).length = count') :
    anchor.window count' (row.flatMap f) = (anchor.window count row).flatMap f := by
  cases anchor with
  | whole => rfl
  | leading =>
      have split : row.flatMap f = (row.take count).flatMap f ++ (row.drop count).flatMap f := by
        rw [← List.flatMap_append, List.take_append_drop]
      rw [window] at long
      rw [window, split, ← long, List.take_left, window]
  | trailing =>
      have split : row.flatMap f = (row.take (row.length - count)).flatMap f ++
          (row.drop (row.length - count)).flatMap f := by
        rw [← List.flatMap_append, List.take_append_drop]
      rw [window] at long
      rw [window, split, ← long, List.length_append, Nat.add_sub_cancel, List.drop_left, window]

/-! ## Names -/

section Names

variable {pattern : String} {weight weight' : Nat} {owner owner' : TypeId} {g g' : Glob}

theorem heeding_accepts_iff (opening : '[' ∈ pattern.toList)
    (heeding : compile pattern true weight owner = .ok g) (name : String) :
    g.acceptsName name = true ↔
      Fits (written pattern).2 (((written pattern).1.window (width (written pattern).2)
        (tracks [] name.toList)).map Track.byte) := by
  obtain ⟨spelled, starless, all⟩ := compile_written opening heeding
  rw [acceptsName_iff_language heeding, if_pos rfl, spelled,
    language_spell (fun a mem => (all a mem).plain) starless, Anchor.map_window, Text.byte_tracks]

/-- A name that the heedful rule accepts, share by share. -/
theorem ignoring_accepts_iff (opening : '[' ∈ pattern.toList)
    (heeding : compile pattern true weight owner = .ok g)
    (ignoring : compile pattern false weight' owner' = .ok g') {name : String}
    (accepts : g.acceptsName name = true) (inStep : ∀ x ∈ shares pattern name, x.InStep) :
    g'.acceptsName name = true ↔ ∀ x ∈ shares pattern name, x.Kept := by
  obtain ⟨spelled, starless, all⟩ := compile_written opening heeding
  have fits := (heeding_accepts_iff opening heeding name).1 accepts
  have bytes : (shares pattern name).flatMap Share.bytes =
      ((written pattern).1.window (width (written pattern).2)
        (tracks [] name.toList)).flatMap Track.lowered :=
    flatMap_bytes ((List.length_map _).symm.trans fits.length)
  have plain : ∀ a ∈ (shares pattern name).flatMap Share.lowered, a.Plain := by
    intro a mem
    obtain ⟨x, among, lowered⟩ := List.mem_flatMap.1 mem
    obtain ⟨atom, front, back, same⟩ := exists_lowerWithin among
    exact (all x.atom atom).plain.lowerWithin front back a (same ▸ lowered)
  have text : spell ((shares pattern name).flatMap Share.lowered) =
      Text.lowerAfter [] (spell (written pattern).2) := spell_lowered _ _ _
  have starless' : '*' ∉ spell ((shares pattern name).flatMap Share.lowered) := by
    rwa [text, Text.mark_mem_lowerAfter (by decide)]
  have long := length_bytes inStep
  rw [bytes] at long
  rw [acceptsName_iff_language ignoring, if_neg (by decide), spelled, lowerAfter_spell, ← text,
    language_spell plain starless', ← Text.lowered_tracks, Anchor.window_flatMap long, ← bytes,
    fits_flatMap inStep]

end Names

end MediaSniff.Glob
