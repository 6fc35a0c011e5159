/-
# MediaSniff.Proofs.Glob.Lenience — what a bracket rule accepts when it ignores case

One would have a rule that ignores case accept whatever the rule of the same pattern accepts
that heeds case. With brackets this does not follow. Lowercasing a range moves its two ends
and not the bytes between them, and a bracket expression takes single bytes, while it is
characters that are lowercased (`ignoringCase_refuses`).

Of a name that the heedful rule accepts, the characters that stand for themselves are safe, so
everything hangs on what the bracket expressions take (`ignoringCase_accepts_iff`). If they are
in ASCII, the rule that ignores case accepts every such name exactly if lowercasing leads out
of no class (`KeepsClass`). A class keeps its bytes if its ranges do, and a range does if it
lies on one side of the end of the capital letters or goes from below them to the end of the
small ones (`KeepsRange`).
-/
import MediaSniff.Proofs.Glob.Shares

set_option autoImplicit false

namespace MediaSniff.Glob

open Text (Track tracks lowerByte)

/-! ## Classes -/

/-- Lowercasing a byte of the class leads to the class of the lowercased content. -/
def KeepsClass (content : List Char) : Prop :=
  ∀ b, InClass (Text.encode content) b →
    InClass (Text.encode (Text.lowerAfter [] content)) (lowerByte b)

/-- A range that ends with `Z` or before it, begins behind it, or goes from below `A` to `z` or
beyond. -/
def KeepsRange (lo hi : UInt8) : Prop := hi ≤ 0x5A ∨ 0x5A < lo ∨ lo < 0x41 ∧ 0x7A ≤ hi

/-- **Lowercasing leads out of a range** unless it is one of these: of others, either the bytes
behind `Z` or the small letters get outside. -/
theorem keepsRange_iff {lo hi : UInt8} (rises : lo ≤ hi) :
    KeepsRange lo hi ↔
      ∀ b, lo ≤ b → b ≤ hi → lowerByte lo ≤ lowerByte b ∧ lowerByte b ≤ lowerByte hi := by
  simp only [KeepsRange, UInt8.le_iff_toNat_le, UInt8.lt_iff_toNat_lt, Text.toNat_lowerByte,
    UInt8.reduceToNat] at rises ⊢
  constructor
  · intro kept b low high
    split <;> split <;> split <;> omega
  · intro kept
    by_contra other
    simp only [not_or, not_and_or, Nat.not_le, Nat.not_lt] at other
    obtain ⟨beyond, low, capital | early⟩ := other
    · -- The first end moves past the byte behind `Z`, which stays.
      obtain ⟨behind, -⟩ := kept 0x5B (Nat.le_succ_of_le low) beyond
      rw [if_pos ⟨capital, low⟩, if_neg (by decide)] at behind
      change lo.toNat + 0x20 ≤ 0x5B at behind
      omega
    · -- The letter `Z` moves past the last end, which stays.
      obtain ⟨-, above⟩ := kept 0x5A low (Nat.le_of_lt beyond)
      rw [if_pos (by decide), if_neg (by omega)] at above
      change 0x7A ≤ hi.toNat at above
      omega

theorem lowerByte_dash {b : UInt8} : lowerByte b = dash ↔ b = dash := by
  rw [← UInt8.toNat_inj, ← UInt8.toNat_inj, Text.toNat_lowerByte]
  have code : dash.toNat = 0x2D := rfl
  split <;> omega

/-- **A class keeps its bytes** if its ranges do. -/
theorem inClass_lowerByte {content : Bytes} {b : UInt8}
    (kept : ∀ r ∈ (parts content).2, KeepsRange r.1 r.2) (mem : InClass content b) :
    InClass (content.map lowerByte) (lowerByte b) := by
  fun_induction parts content with
  | case1 => cases mem
  | case2 lo hi rest ih =>
      rw [inClass_range] at mem
      obtain ⟨here, later⟩ := List.forall_mem_cons.1 kept
      rw [List.map_cons, List.map_cons, lowerByte_dash.2 rfl, List.map_cons, inClass_range]
      refine mem.imp (fun within => ?_) (ih later)
      exact (keepsRange_iff (UInt8.le_trans within.1 within.2)).1 here b within.1 within.2
  | case3 c d hi rest other ih =>
      rw [inClass_cons (Or.inl (by simpa using other))] at mem
      have other' : lowerByte d ≠ dash := mt lowerByte_dash.1 other
      rw [List.map_cons, inClass_cons (Or.inl (by simpa using other'))]
      exact mem.imp (congrArg lowerByte) (ih kept)
  | case4 c rest short ih =>
      have alone := length_le_one short
      rw [inClass_cons (Or.inr alone)] at mem
      rw [List.map_cons, inClass_cons (Or.inr (by rwa [List.length_map]))]
      exact mem.imp (congrArg lowerByte) (ih kept)

/-- A bracket expression that is read has a byte in its class. -/
theorem exists_inClass {content : Bytes} (given : content ≠ [])
    (read : Itemised content ∨ DashRange content) : ∃ b, InClass content b := by
  rcases read with itemised | ⟨lo, hi, rfl, rises, -⟩
  · cases itemised with
    | nil => exact absurd rfl given
    | single solid later => exact ⟨_, (inClass_cons (Or.inl later.head?)).2 (Or.inl rfl)⟩
    | range begins ends rises later =>
        exact ⟨_, inClass_range.2 (Or.inl ⟨UInt8.le_refl _, rises⟩)⟩
  · exact ⟨lo, inClass_range.2 (Or.inl ⟨UInt8.le_refl lo, UInt8.le_of_lt rises⟩)⟩

/-- No byte of a class lies beyond all that are listed. -/
theorem exists_le_of_inClass {content : Bytes} {b : UInt8} (mem : InClass content b) :
    ∃ c ∈ content, b ≤ c := by
  fun_induction parts content with
  | case1 => cases mem
  | case2 lo hi rest ih =>
      rcases inClass_range.1 mem with within | later
      · exact ⟨hi, by simp, within.2⟩
      · obtain ⟨c, among, le⟩ := ih later
        exact ⟨c, by simp [among], le⟩
  | case3 c d hi rest other ih =>
      rcases (inClass_cons (Or.inl (by simpa using other))).1 mem with rfl | later
      · exact ⟨b, List.mem_cons_self, UInt8.le_refl b⟩
      · obtain ⟨c', among, le⟩ := ih later
        exact ⟨c', List.mem_cons_of_mem c among, le⟩
  | case4 c rest short ih =>
      rcases (inClass_cons (Or.inr (length_le_one short))).1 mem with rfl | later
      · exact ⟨b, List.mem_cons_self, UInt8.le_refl b⟩
      · obtain ⟨c', among, le⟩ := ih later
        exact ⟨c', List.mem_cons_of_mem c among, le⟩

theorem ascii_of_inClass {content : List Char} (ascii : ∀ c ∈ content, c.toNat < 0x80) {b : UInt8}
    (mem : InClass (Text.encode content) b) : b < 0x80 := by
  obtain ⟨d, among, le⟩ := exists_le_of_inClass mem
  obtain ⟨c, listed, byte⟩ := List.mem_flatMap.1 among
  have code := Text.mem_utf8EncodeChar byte
  have small := ascii c listed
  rw [UInt8.le_iff_toNat_le] at le
  rw [UInt8.lt_iff_toNat_lt]
  change b.toNat < 0x80
  omega

/-- A bracket expression takes what stands in the place of its share. -/
theorem kept_bracket_iff {x : Share} {content : List Char}
    (lowered : x.lowered = [.bracket content]) (one : x.bytes.length = 1) :
    x.Kept ↔ ∀ b ∈ x.bytes, InClass (Text.encode content) b := by
  obtain ⟨b, single⟩ := List.length_eq_one_iff.1 one
  rw [Share.Kept, lowered, single, fits_bracket]
  simp

theorem keepsClass_of_ranges {content : List Char} (ascii : ∀ c ∈ content, c.toNat < 0x80)
    (kept : ∀ r ∈ (parts (Text.encode content)).2, KeepsRange r.1 r.2) : KeepsClass content := by
  intro b mem
  rw [Text.encode_lowerAfter_of_ascii ascii]
  exact inClass_lowerByte kept mem

/-- A class that is one range. -/
theorem keepsClass_range_iff {lo hi : Char} (low : lo.toNat < 0x80) (high : hi.toNat < 0x80)
    (rises : lo ≤ hi) : KeepsClass [lo, '-', hi] ↔ KeepsRange lo.toUInt8 hi.toUInt8 := by
  have ascii : ∀ c ∈ [lo, '-', hi], c.toNat < 0x80 := by
    simpa using ⟨low, high⟩
  have bytes : Text.encode [lo, '-', hi] = [lo.toUInt8, dash, hi.toUInt8] := by
    rw [Text.encode_cons, Text.encode_cons, Text.encode_cons,
      (Text.encode_lowerChar_of_ascii low).1, (Text.encode_lowerChar_of_ascii high).1]
    rfl
  have rises : lo.toUInt8 ≤ hi.toUInt8 := by
    rw [UInt8.le_iff_toNat_le, Text.toNat_toUInt8 low, Text.toNat_toUInt8 high]
    exact rises
  have single : ∀ lo hi b : UInt8, InClass [lo, dash, hi] b ↔ lo ≤ b ∧ b ≤ hi := fun _ _ _ =>
    inClass_range.trans (or_iff_left id)
  rw [KeepsClass, Text.encode_lowerAfter_of_ascii ascii, bytes, keepsRange_iff rises]
  simp only [List.map_cons, List.map_nil, lowerByte_dash.2 rfl, single, and_imp]

/-! ## Names for a pattern -/

/-- Where for each atom there is a character that it takes, there is a name. -/
theorem exists_name {atoms : List Atom}
    (each : ∀ a ∈ atoms, ∃ c, a.Fits (String.utf8EncodeChar c)) :
    ∃ cs, Fits atoms (Text.encode cs) := by
  induction atoms with
  | nil => exact ⟨[], rfl⟩
  | cons a atoms ih =>
      obtain ⟨⟨c, here⟩, later⟩ := List.forall_mem_cons.1 each
      obtain ⟨cs, fits⟩ := ih later
      exact ⟨c :: cs, _, _, here, fits, rfl⟩

/-- There is one in which a given atom takes a given character. -/
theorem exists_share {atoms : List Atom}
    (each : ∀ a ∈ atoms, ∃ c, a.Fits (String.utf8EncodeChar c)) {a : Atom} (mem : a ∈ atoms)
    {d : Char} (taken : a.Fits (String.utf8EncodeChar d)) (before before' : List Char) :
    ∃ cs, Fits atoms (Text.encode cs) ∧ ∃ x ∈ sharesOf before' atoms (tracks before cs),
      x.atom = a ∧ x.tracks.map Track.byte = String.utf8EncodeChar d := by
  induction atoms generalizing before before' with
  | nil => cases mem
  | cons a' atoms ih =>
      obtain ⟨⟨c, here⟩, later⟩ := List.forall_mem_cons.1 each
      rcases List.mem_cons.1 mem with rfl | mem
      · obtain ⟨cs, fits⟩ := exists_name later
        refine ⟨d :: cs, ⟨_, _, taken, fits, rfl⟩, _, List.mem_cons_self, rfl, ?_⟩
        rw [← taken.length]
        exact (Text.tracks_cons_split before cs d).1
      · obtain ⟨cs, fits, x, among, share⟩ :=
          ih later mem (c :: before) (a'.text.reverse ++ before')
        rw [← (Text.tracks_cons_split before cs c).2, here.length] at among
        exact ⟨c :: cs, ⟨_, _, here, fits, rfl⟩, x, List.mem_cons_of_mem _ among, share⟩

theorem mem_brackets {pattern : String} {content : List Char} :
    content ∈ brackets pattern ↔ .bracket content ∈ (written pattern).2 := by
  rw [brackets, List.mem_filterMap]
  constructor
  · rintro ⟨a, mem, same⟩
    cases a with
    | char c => cases same
    | bracket content' =>
        cases same
        exact mem
  · exact fun mem => ⟨_, mem, rfl⟩

section Rules

variable {pattern : String} {weight weight' : Nat} {owner owner' : TypeId} {g g' : Glob}
  {name : String} {x : Share} {content : List Char}

theorem share_bracket (mem : x ∈ shares pattern name) (bracket : x.atom = .bracket content) :
    content ∈ brackets pattern ∧ x.lowered = [.bracket (Text.lowerAfter [] content)] := by
  obtain ⟨among, front, back, lowered⟩ := exists_lowerWithin mem
  rw [bracket] at among lowered
  exact ⟨mem_brackets.2 among, lowered⟩

variable (opening : '[' ∈ pattern.toList) (heeding : compile pattern true weight owner = .ok g)

include opening heeding

/-- A bracket expression in ASCII has a byte of its class for its share, and the small form of
that byte stands there. -/
theorem exists_of_bracket (accepts : g.acceptsName name = true)
    (mem : x ∈ shares pattern name) (bracket : x.atom = .bracket content)
    (ascii : ∀ c ∈ content, c.toNat < 0x80) :
    ∃ b, InClass (Text.encode content) b ∧ x.tracks.map Track.byte = [b] ∧
      x.bytes = [lowerByte b] := by
  have fits := (heeding_accepts_iff opening heeding name).1 accepts
  obtain ⟨among, own⟩ := fits_share fits mem
  rw [bracket] at own
  obtain ⟨b, inside, taken⟩ := own
  obtain ⟨t, none, single, rfl, blank⟩ := List.map_eq_cons_iff.1 taken
  obtain rfl := List.map_eq_nil_iff.1 blank
  refine ⟨t.byte, inside, taken, ?_⟩
  have listed : t ∈ tracks [] name.toList := by
    obtain ⟨front, back, whole⟩ := (written pattern).1.exists_window
      (width (written pattern).2) (tracks [] name.toList)
    rw [whole]
    exact List.mem_append_right _ (List.mem_append_left _ (among (single ▸ List.mem_cons_self)))
  rw [Share.bytes, single, List.flatMap_singleton,
    Text.lowered_of_ascii listed (ascii_of_inClass ascii inside)]

/-- A character that stands for itself never gets out of step, and unless it is a capital sigma
it is kept. -/
theorem share_char (accepts : g.acceptsName name = true)
    (mem : x ∈ shares pattern name) {c : Char} (single : x.atom = .char c) :
    x.InStep ∧ (c ≠ 'Σ' → x.Kept) := by
  have fits := (heeding_accepts_iff opening heeding name).1 accepts
  obtain ⟨-, front, back, lowered⟩ := exists_lowerWithin mem
  obtain ⟨before, rest, whole⟩ := (written pattern).1.exists_window
    (width (written pattern).2) (tracks [] name.toList)
  have ending := Text.isEnd_tracks [] name.toList
  rw [whole] at ending
  obtain ⟨front', back', bytes⟩ := exists_of_char ending.of_append fits mem single
  rw [single, Atom.lowerWithin] at lowered
  constructor
  · rw [Share.InStep, bytes, lowered, width_chars]
    exact Text.length_encode_lowerWithin
  · intro notSigma
    rw [Share.Kept, bytes, lowered, fits_chars, Text.lowerWithin_singleton,
      Text.lowerWithin_singleton, if_neg notSigma, if_neg notSigma]

/-- There is a character for every atom of a pattern whose brackets are in ASCII. -/
theorem exists_fits (ascii : ∀ content ∈ brackets pattern, ∀ c ∈ content, c.toNat < 0x80) :
    ∀ a ∈ (written pattern).2, ∃ c, a.Fits (String.utf8EncodeChar c) := by
  intro a mem
  cases a with
  | char c => exact ⟨c, rfl⟩
  | bracket content =>
      obtain ⟨-, -, all⟩ := compile_written opening heeding
      obtain ⟨given, read⟩ :=
        (exists_bracketSegment_iff pattern).1 ((all _ mem).read content rfl)
      obtain ⟨b, inside⟩ := exists_inClass given read
      exact ⟨_, b, inside, Text.utf8EncodeChar_ofNat
        (ascii_of_inClass (ascii content (mem_brackets.2 mem)) inside)⟩

/-- A name in which a bracket expression takes a given byte of its class. -/
theorem exists_name_of_inClass (ascii : ∀ content ∈ brackets pattern, ∀ c ∈ content, c.toNat < 0x80)
    (mem : content ∈ brackets pattern) {b : UInt8} (inside : InClass (Text.encode content) b) :
    ∃ name, g.acceptsName name = true ∧ ∃ x ∈ shares pattern name,
      x.atom = .bracket content ∧ x.tracks.map Track.byte = [b] := by
  have single := Text.utf8EncodeChar_ofNat (ascii_of_inClass (ascii content mem) inside)
  obtain ⟨cs, fits, share⟩ := exists_share (exists_fits opening heeding ascii)
    (mem_brackets.1 mem) ⟨b, inside, single⟩ [] []
  rw [single] at share
  have whole : (written pattern).1.window (width (written pattern).2) (tracks [] cs) =
      tracks [] cs := by
    rw [← fits.length, ← Text.byte_tracks [], List.length_map, Anchor.window_length]
  refine ⟨String.ofList cs, ?_, ?_⟩
  · rwa [heeding_accepts_iff opening heeding, String.toList_ofList, whole, Text.byte_tracks]
  · rwa [shares, String.toList_ofList, whole]

/-- Shares are in step if those of the bracket expressions are. -/
theorem inStep_shares (accepts : g.acceptsName name = true)
    (single : ∀ x ∈ shares pattern name, ∀ content, x.atom = .bracket content →
      x.bytes.length = 1) :
    ∀ x ∈ shares pattern name, x.InStep := by
  intro x mem
  cases atom : x.atom with
  | char c => exact (share_char opening heeding accepts mem atom).1
  | bracket content =>
      rw [Share.InStep, single x mem content atom, (share_bracket mem atom).2]
      rfl

/-- A name that the heedful rule accepts, bracket by bracket. -/
theorem ignoring_accepts_iff_brackets
    (ignoring : compile pattern false weight' owner' = .ok g') (accepts : g.acceptsName name = true)
    (single : ∀ x ∈ shares pattern name, ∀ content, x.atom = .bracket content →
      x.bytes.length = 1)
    (sigma : ∀ x ∈ shares pattern name, x.atom = .char 'Σ' → x.Kept) :
    g'.acceptsName name = true ↔
      ∀ x ∈ shares pattern name, ∀ content, x.atom = .bracket content →
        ∀ b ∈ x.bytes, InClass (Text.encode (Text.lowerAfter [] content)) b := by
  rw [ignoring_accepts_iff opening heeding ignoring accepts
    (inStep_shares opening heeding accepts single)]
  refine forall₂_congr fun x mem => ?_
  cases atom : x.atom with
  | char c =>
      refine iff_of_true ?_ nofun
      by_cases isSigma : c = 'Σ'
      · exact sigma x mem (isSigma ▸ atom)
      · exact (share_char opening heeding accepts mem atom).2 isSigma
  | bracket content =>
      rw [kept_bracket_iff (share_bracket mem atom).2 (single x mem content atom)]
      simp only [Atom.bracket.injEq, forall_eq']

/-- **Brackets in ASCII** keep every name exactly if they keep their classes. -/
theorem ignoring_accepts_all_iff (ignoring : compile pattern false weight' owner' = .ok g')
    (ascii : ∀ content ∈ brackets pattern, ∀ c ∈ content, c.toNat < 0x80)
    (noSigma : .char 'Σ' ∉ (written pattern).2) :
    (∀ name, g.acceptsName name = true → g'.acceptsName name = true) ↔
      ∀ content ∈ brackets pattern, KeepsClass content := by
  have perName : ∀ name, g.acceptsName name = true →
      (g'.acceptsName name = true ↔
        ∀ x ∈ shares pattern name, ∀ content, x.atom = .bracket content →
          ∀ b ∈ x.bytes, InClass (Text.encode (Text.lowerAfter [] content)) b) := by
    intro name accepts
    refine ignoring_accepts_iff_brackets opening heeding ignoring accepts
      (fun x mem content atom => ?_) fun x mem atom => ?_
    · obtain ⟨b, -, -, bytes⟩ := exists_of_bracket opening heeding accepts mem atom
        (ascii content (share_bracket mem atom).1)
      rw [bytes]
      rfl
    · exact absurd (atom ▸ (exists_lowerWithin mem).1) noSigma
  constructor
  · intro lenient content mem b inside
    obtain ⟨name, accepts, x, among, atom, taken⟩ :=
      exists_name_of_inClass opening heeding ascii mem inside
    obtain ⟨b', -, taken', bytes⟩ :=
      exists_of_bracket opening heeding accepts among atom (ascii content mem)
    rw [taken] at taken'
    cases taken'
    refine (perName name accepts).1 (lenient name accepts) x among content atom _ ?_
    rw [bytes]
    exact List.mem_cons_self
  · intro keeps name accepts
    refine (perName name accepts).2 fun x mem content atom b stands => ?_
    obtain ⟨among, -⟩ := share_bracket mem atom
    obtain ⟨b', inside, -, bytes⟩ :=
      exists_of_bracket opening heeding accepts mem atom (ascii content among)
    rw [bytes, List.mem_singleton] at stands
    exact stands ▸ keeps content among b' inside

/-- **Bracket rules that ignore case.** Of a name that the rule accepts which heeds case,
suppose that each bracket expression takes a byte in whose place one byte stands in the
lowercase form, and that a capital sigma of the pattern comes out in the name as in the pattern.
The rule that ignores case accepts the name exactly if all those bytes are in the classes of the
lowercased bracket expressions. If the brackets are in ASCII and there is no such sigma, it
accepts every name that the other accepts exactly if all classes keep their bytes. A class in
ASCII does if all its ranges do, and one that is a range does only then. -/
theorem ignoringCase_accepts_iff (ignoring : compile pattern false weight' owner' = .ok g') :
    (∀ name, g.acceptsName name = true →
      (∀ x ∈ shares pattern name, ∀ content, x.atom = .bracket content → x.bytes.length = 1) →
      (∀ x ∈ shares pattern name, x.atom = .char 'Σ' → x.Kept) →
      (g'.acceptsName name = true ↔
        ∀ x ∈ shares pattern name, ∀ content, x.atom = .bracket content →
          ∀ b ∈ x.bytes, InClass (Text.encode (Text.lowerAfter [] content)) b)) ∧
    ((∀ content ∈ brackets pattern, ∀ c ∈ content, c.toNat < 0x80) →
      .char 'Σ' ∉ (written pattern).2 →
      ((∀ name, g.acceptsName name = true → g'.acceptsName name = true) ↔
        ∀ content ∈ brackets pattern, KeepsClass content)) ∧
    (∀ content, (∀ c ∈ content, c.toNat < 0x80) →
      (∀ r ∈ (parts (Text.encode content)).2, KeepsRange r.1 r.2) → KeepsClass content) ∧
    ∀ lo hi : Char, lo.toNat < 0x80 → hi.toNat < 0x80 → lo ≤ hi →
      (KeepsClass [lo, '-', hi] ↔ KeepsRange lo.toUInt8 hi.toUInt8) :=
  ⟨fun _ => ignoring_accepts_iff_brackets opening heeding ignoring,
    ignoring_accepts_all_iff opening heeding ignoring,
    fun _ => keepsClass_of_ranges,
    fun _ _ => keepsClass_range_iff⟩

end Rules

/-- A rule for manual pages keeps all its names, and one whose brackets take a letter of two
bytes keeps a name with that letter. -/
theorem manualSections_kept :
    ('[' ∈ "*.[1-9A-N]".toList ∧ ∃ g, compile "*.[1-9A-N]" true 50 ⟨7⟩ = .ok g ∧
      ∃ g', compile "*.[1-9A-N]" false 50 ⟨7⟩ = .ok g' ∧
        ∀ name, g.acceptsName name = true → g'.acceptsName name = true) ∧
    '[' ∈ "*-[É][É]".toList ∧ ∃ g, compile "*-[É][É]" true 50 ⟨7⟩ = .ok g ∧
      ∃ g', compile "*-[É][É]" false 50 ⟨7⟩ = .ok g' ∧ g.acceptsName "ÀL-É" = true ∧
        g'.acceptsName "ÀL-É" = true := by
  constructor
  · have opening : '[' ∈ "*.[1-9A-N]".toList := by decide +kernel
    have heeds : ∃ g, compile "*.[1-9A-N]" true 50 ⟨7⟩ = .ok g := by decide +kernel
    have ignores : ∃ g', compile "*.[1-9A-N]" false 50 ⟨7⟩ = .ok g' := by decide +kernel
    obtain ⟨g, heeding⟩ := heeds
    obtain ⟨g', ignoring⟩ := ignores
    obtain ⟨-, everyName, byRanges, -⟩ := ignoringCase_accepts_iff opening heeding ignoring
    have contents : brackets "*.[1-9A-N]" = [['1', '-', '9', 'A', '-', 'N']] := by decide +kernel
    have ranges : (parts (Text.encode ['1', '-', '9', 'A', '-', 'N'])).2 =
        [(0x31, 0x39), (0x41, 0x4E)] := by
      decide +kernel
    have ascii : ∀ content ∈ brackets "*.[1-9A-N]", ∀ c ∈ content, c.toNat < 0x80 := by
      rw [contents]
      simp
    refine ⟨opening, g, heeding, g', ignoring,
      (everyName ascii (by decide +kernel)).2 fun content mem => ?_⟩
    refine byRanges content (ascii content mem) fun r range => Or.inl ?_
    rw [contents, List.mem_singleton] at mem
    rw [mem, ranges] at range
    revert r
    simp
  · have opening : '[' ∈ "*-[É][É]".toList := by decide +kernel
    have heeds : ∃ g, compile "*-[É][É]" true 50 ⟨7⟩ = .ok g ∧ g.acceptsName "ÀL-É" = true := by
      decide +kernel
    have ignores : ∃ g', compile "*-[É][É]" false 50 ⟨7⟩ = .ok g' := by decide +kernel
    obtain ⟨g, heeding, accepts⟩ := heeds
    obtain ⟨g', ignoring⟩ := ignores
    obtain ⟨perName, -⟩ := ignoringCase_accepts_iff opening heeding ignoring
    have own : shares "*-[É][É]" "ÀL-É" =
        [⟨.char '-', [.char '-'], [⟨0x2D, [0x2D]⟩]⟩,
          ⟨.bracket ['É'], [.bracket ['é']], [⟨0xC3, [0xC3]⟩]⟩,
          ⟨.bracket ['É'], [.bracket ['é']], [⟨0x89, [0xA9]⟩]⟩] := by
      decide +kernel
    refine ⟨opening, g, heeding, g', ignoring, accepts, (perName _ accepts ?_ ?_).2 ?_⟩
    · rw [own]
      simp [Share.bytes]
    · rw [own]
      simp
    · have lowered : Text.encode (Text.lowerAfter [] ['É']) = [0xC3, 0xA9] := by decide +kernel
      rw [own]
      simp [Share.bytes, lowered, InClass]

/-- **A rule that ignores case refuses a name** that the rule of the same pattern accepts which
heeds case: the ends of the range move past the byte between them. -/
theorem ignoringCase_refuses :
    ¬ ∀ (pattern : String) (weight : Nat) (owner : TypeId) (g g' : Glob), '[' ∈ pattern.toList →
      compile pattern true weight owner = .ok g → compile pattern false weight owner = .ok g' →
      ∀ name, g.acceptsName name = true → g'.acceptsName name = true := by
  intro claimed
  have heeds : ∃ g, compile "[A-z]" true 50 ⟨7⟩ = .ok g ∧ g.acceptsName "_" = true := by
    decide +kernel
  have ignores : ∃ g', compile "[A-z]" false 50 ⟨7⟩ = .ok g' ∧ g'.acceptsName "_" = false := by
    decide +kernel
  obtain ⟨g, heeding, accepts⟩ := heeds
  obtain ⟨g', ignoring, refuses⟩ := ignores
  have accepts' := claimed "[A-z]" 50 ⟨7⟩ g g' (by decide +kernel) heeding ignoring "_" accepts
  rw [refuses] at accepts'
  cases accepts'

end MediaSniff.Glob
