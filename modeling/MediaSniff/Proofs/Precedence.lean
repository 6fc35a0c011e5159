/-
# MediaSniff.Proofs.Precedence — which of several matching signatures decides

A table tries its signatures in an order of its own and stops at the first that matches. The
order is that of a rank (`Magic.Signature.rank`, `Layout.Signature.rank`), and signatures of one
rank are tried as they were given. So of all that match, the one that decides is least in rank
and then in place (`LeastMatch`); since no two places are the same, there is only one. The rank of
a compiled content rule tells its priority, how few pattern bytes a way down its tests can have,
and how many tests there are (`Magic.Signature.rank_of_compile`).

For content rules and directory rules alike this comes from what a stable sort does with a rank
(`exists_leastMatch`). A document that no signature matches is left to its first bytes, which
`LooksWritten` describes.
-/
import MediaSniff.Layout.Table
import MediaSniff.Magic.Table
import MediaSniff.Proofs.Arena.Cost
import MediaSniff.Proofs.Arena.Labels
import MediaSniff.Proofs.Layout.Listing
import MediaSniff.Proofs.Magic.Chain
import MediaSniff.Proofs.StableSort
import Mathlib.Data.Prod.Lex
import Mathlib.Tactic.IntervalCases

set_option autoImplicit false

namespace MediaSniff

open OrderDual (toDual)

/-! ## The least match -/

section LeastMatch

variable {α β : Type} [LinearOrder β] {l : List α} {matching : α → Bool} {rank : α → β}

/-- A member of a list matches, and no other that matches has a lesser rank, or the same rank and
an earlier place. -/
def LeastMatch (l : List α) (matching : α → Bool) (rank : α → β) (a : α) : Prop :=
  ∃ k : Nat, l[k]? = some a ∧ matching a = true ∧
    ∀ (j : Nat) (b : α), l[j]? = some b → matching b = true →
      toLex (rank a, k) ≤ toLex (rank b, j)

/-- A member that matches and that comes first of all members, by rank and then by place, is the
least match. -/
theorem LeastMatch.eq_of_first {a b : α} (least : LeastMatch l matching rank a) {k : Nat}
    (here : l[k]? = some b) (holds : matching b = true)
    (first : ∀ (j : Nat) (inside : j < l.length), toLex (rank b, k) ≤ toLex (rank l[j], j)) :
    a = b := by
  obtain ⟨i, there, -, least⟩ := least
  obtain ⟨inside, rfl⟩ := List.getElem?_eq_some_iff.1 there
  have same : toLex (rank l[i], i) = toLex (rank b, k) :=
    le_antisymm (least k b here holds) (first i inside)
  obtain rfl : i = k := congrArg (fun r => (ofLex r).2) same
  exact Option.some.inj (there.symm.trans here)

variable {le : α → α → Bool} (ordered : ∀ a b, le a b = true ↔ rank a ≤ rank b)
include ordered

/-- **Trying in the order of ranks finds the least match.** -/
theorem exists_leastMatch (given : ∃ a ∈ l, matching a = true) :
    ∃ a, LeastMatch l matching rank a ∧ (l.mergeSort le).find? matching = some a := by
  have trans : ∀ a b c, le a b = true → le b c = true → le a c = true := by
    simp only [ordered]
    exact fun a b c => le_trans
  have total : ∀ a b, (le a b || le b a) = true := by
    simp only [Bool.or_eq_true, ordered]
    exact fun a b => le_total _ _
  obtain ⟨k, a, here, holds, found, least⟩ := StableSort.exists_find?_mergeSort trans total given
  refine ⟨a, ⟨k, here, holds, fun j b there holdsB => ?_⟩, found⟩
  obtain ⟨before, level⟩ := least j b there holdsB
  rw [ordered] at before level
  rw [Prod.Lex.toLex_le_toLex]
  rcases before.lt_or_eq with less | same
  · exact Or.inl less
  · exact Or.inr ⟨same, level same.ge⟩

end LeastMatch

/-- Without a match trying finds nothing, in whatever order. -/
theorem find?_mergeSort_eq_none {α : Type} {le : α → α → Bool} {l : List α} {matching : α → Bool}
    (none : ∀ a ∈ l, matching a = false) : (l.mergeSort le).find? matching = .none := by
  rw [List.find?_eq_none]
  intro a mem holds
  rw [none a (List.mem_mergeSort.1 mem)] at holds
  cases holds

/-! ## Content rules -/

namespace Magic

/-- What counts between content rules, the first difference deciding: higher priority, fewer
bytes on the cheapest way, fewer tests. -/
abbrev Rank := ℕᵒᵈ ×ₗ ℕ ×ₗ ℕ

def Signature.rank (s : Signature) : Rank :=
  toLex (toDual s.priority, toLex (s.leastPatternLength, s.nodeCount))

theorem triedBefore_iff (a b : Signature) : triedBefore a b = true ↔ a.rank ≤ b.rank := by
  simp only [Signature.rank, Prod.Lex.toLex_le_toLex, OrderDual.toDual_lt_toDual,
    EmbeddingLike.apply_eq_iff_eq, triedBefore]
  grind

/-- The rank of a compiled rule can be read off the forest of its tests: what counts next to its
priority are the pattern bytes on the cheapest way down, and how many tests there are. -/
theorem Signature.rank_of_compile {owner : TypeId} {priority : Option Nat}
    {rules : List Descriptor.MatchRule} {s : Signature}
    (compiled : Signature.compile owner priority rules = .ok s) :
    ∃ trees, compileForest rules = .ok trees ∧
      s.rank = toLex (toDual (priority.getD defaultPriority),
        toLex (Tree.leastCost (fun n => n.pattern.length) trees, (Tree.labels trees).length)) := by
  obtain ⟨-, trees, done, rfl⟩ := Signature.compile_eq_ok.1 compiled
  refine ⟨trees, done, ?_⟩
  rw [Signature.rank, leastPatternLength, nodeCount, Arena.cheapestWay_ofForest,
    Arena.size_ofForest]

/-- The first bytes are those of a text: a byte-order mark of UTF-16, in either order, or of
UTF-8 stands in front, or there are only bytes from the space on, tabs, newlines and carriage
returns. -/
def LooksWritten (head : Bytes) : Prop :=
  ([0xFE, 0xFF] <+: head ∨ [0xFF, 0xFE] <+: head ∨ [0xEF, 0xBB, 0xBF] <+: head) ∨
    ∀ b ∈ head, 0x20 ≤ b ∨ b = 0x09 ∨ b = 0x0A ∨ b = 0x0D

theorem looksLikeText_iff {data : Bytes} :
    looksLikeText data = true ↔ LooksWritten (data.take 128) := by
  simp [looksLikeText, LooksWritten, byteOrderMarks, isTextByte, textWindow, or_assoc]

namespace Table

variable {signatures : List Signature} {sentinels : Sentinels} {data : Bytes}

/-- If some content rule matches, the least of those that do gives its type. -/
theorem classify_of_match (given : data ≠ [])
    (some : ∃ s ∈ signatures, s.accepts data.toByteArray = true) :
    ∃ s, LeastMatch signatures (·.accepts data.toByteArray) Signature.rank s ∧
      (ofList signatures sentinels).classify data = s.owner := by
  obtain ⟨s, least, found⟩ := exists_leastMatch triedBefore_iff some
  refine ⟨s, least, ?_⟩
  rw [classify, ofList, if_neg (by simpa using given)]
  simp only [found]

/-- If none does, the first bytes decide. -/
theorem classify_of_no_match (given : data ≠ [])
    (none : ∀ s ∈ signatures, s.accepts data.toByteArray = false) :
    (LooksWritten (data.take 128) → (ofList signatures sentinels).classify data = sentinels.text) ∧
    (¬ LooksWritten (data.take 128) →
      (ofList signatures sentinels).classify data = sentinels.unknown) := by
  have nothing : (signatures.mergeSort triedBefore).find? (·.accepts data.toByteArray) = .none :=
    find?_mergeSort_eq_none none
  rw [← looksLikeText_iff, classify, ofList, if_neg (by simpa using given)]
  simp only [nothing]
  constructor
  · intro written
    rw [if_pos written]
  · intro other
    rw [if_neg other]

end Table

end Magic

/-! ## Directory rules -/

namespace Layout

/-- What counts between directory rules: higher priority, then fewer tests. -/
abbrev Rank := ℕᵒᵈ ×ₗ ℕ

def Signature.rank (s : Signature) : Rank := toLex (toDual s.priority, s.nodeCount)

theorem triedBefore_iff (a b : Signature) : triedBefore a b = true ↔ a.rank ≤ b.rank := by
  simp only [Signature.rank, Prod.Lex.toLex_le_toLex, OrderDual.toDual_lt_toDual,
    EmbeddingLike.apply_eq_iff_eq, triedBefore]
  grind

namespace Table

variable {signatures : List Signature} {sentinels : Sentinels} {globs : Glob.Index}
  {snapshot : Snapshot}

/-- If some directory rule matches, the least of those that do gives its type. -/
theorem classify?_of_match (some : ∃ s ∈ signatures, s.accepts globs snapshot = true) :
    ∃ s, LeastMatch signatures (·.accepts globs snapshot) Signature.rank s ∧
      (ofList signatures sentinels).classify? globs snapshot = .some s.owner := by
  obtain ⟨s, least, found⟩ := exists_leastMatch triedBefore_iff some
  refine ⟨s, least, ?_⟩
  rw [classify?, ofList, found, Option.map_some]

theorem classify?_of_no_match (none : ∀ s ∈ signatures, s.accepts globs snapshot = false) :
    (ofList signatures sentinels).classify? globs snapshot = .none := by
  rw [classify?, ofList, find?_mergeSort_eq_none none, Option.map_none]

end Table

end Layout

/-! ## Both kinds of rules -/

/-- **The least of the matching signatures decides**, for content rules on a document that is not
empty as for directory rules on a directory. A document that no content rule matches is a text or
unknown by its first bytes, and a directory that no directory rule matches has no answer. -/
theorem least_match_decides (sentinels : Sentinels) (signatures : List Magic.Signature)
    {data : Bytes} (given : data ≠ []) (layouts : List Layout.Signature) (globs : Glob.Index)
    (snapshot : Layout.Snapshot) :
    (((∃ s ∈ signatures, s.accepts data.toByteArray = true) →
        ∃ s, LeastMatch signatures (·.accepts data.toByteArray) Magic.Signature.rank s ∧
          (Magic.Table.ofList signatures sentinels).classify data = s.owner) ∧
      ((∀ s ∈ signatures, s.accepts data.toByteArray = false) →
        (Magic.LooksWritten (data.take 128) →
          (Magic.Table.ofList signatures sentinels).classify data = sentinels.text) ∧
        (¬ Magic.LooksWritten (data.take 128) →
          (Magic.Table.ofList signatures sentinels).classify data = sentinels.unknown))) ∧
    ((∃ s ∈ layouts, s.accepts globs snapshot = true) →
      ∃ s, LeastMatch layouts (·.accepts globs snapshot) Layout.Signature.rank s ∧
        (Layout.Table.ofList layouts sentinels).classify? globs snapshot = some s.owner) ∧
    ((∀ s ∈ layouts, s.accepts globs snapshot = false) →
      (Layout.Table.ofList layouts sentinels).classify? globs snapshot = none) := by
  refine ⟨⟨?_, ?_⟩, ?_, ?_⟩
  · exact Magic.Table.classify_of_match given
  · exact Magic.Table.classify_of_no_match given
  · exact Layout.Table.classify?_of_match
  · exact Layout.Table.classify?_of_no_match

/-- Rules for archives that overlap: one of lower priority with fewest bytes, one with four bytes
in two tests, and two with four bytes in one. -/
def archiveRules : List Magic.Signature :=
  [⟨⟨10⟩, 40, .ofForest [.node ⟨0, 0, [0x50, 0x4B], none⟩ []]⟩,
    ⟨⟨11⟩, 50, .ofForest [.node ⟨0, 0, [0x50, 0x4B], none⟩ [.node ⟨2, 0, [3, 4], none⟩ []]]⟩,
    ⟨⟨12⟩, 50, .ofForest [.node ⟨0, 9, [0x6D, 0x69, 0x6D, 0x65], none⟩ []]⟩,
    ⟨⟨13⟩, 50, .ofForest [.node ⟨0, 0, [0x50, 0x4B, 3, 4], none⟩ []]⟩]

def archive : Bytes := [0x50, 0x4B, 3, 4, 0x6D, 0x69, 0x6D, 0x65]

def archiveTypes : Sentinels := ⟨⟨0⟩, ⟨1⟩, ⟨2⟩, ⟨3⟩, ⟨4⟩⟩

theorem archive_matching : ∀ s ∈ archiveRules, s.accepts archive.toByteArray = true := by
  decide +kernel

/-- A test for a folder. -/
def folderTest (path : String) : Layout.Node := ⟨path, .directory, false, false, false, none⟩

/-- Rules for discs that overlap: one of lower priority, one with two tests, and two with one. -/
def discRules : List Layout.Signature :=
  [⟨⟨20⟩, 40, .ofForest [.node (folderTest "bdmv") []]⟩,
    ⟨⟨21⟩, 50, .ofForest [.node (folderTest "video_ts") [.node (folderTest "audio_ts") []]]⟩,
    ⟨⟨22⟩, 50, .ofForest [.node (folderTest "audio_ts") []]⟩,
    ⟨⟨23⟩, 50, .ofForest [.node (folderTest "video_ts") []]⟩]

/-- A disc with a folder for each of its forms. -/
def disc : List (String × Layout.Entry) :=
  [("AUDIO_TS", { name := "AUDIO_TS", kind := .directory }),
    ("VIDEO_TS", { name := "VIDEO_TS", kind := .directory }),
    ("BDMV", { name := "BDMV", kind := .directory })]

/-- Each form has its folder on the disc, whichever case its name is written in. -/
theorem folderTest_holds (globs : Glob.Index) {path : String}
    (listed : path ∈ ["audio_ts", "video_ts", "bdmv"]) :
    (folderTest path).holds globs (.ofList disc) = true := by
  have stands : ∀ path ∈ ["audio_ts", "video_ts", "bdmv"],
      (Layout.entryAt disc false path).any (fun e => Layout.ObjectKind.directory.accepts e.kind) =
        true := by
    decide +kernel
  obtain ⟨e, found, kind⟩ := (Option.any_eq_true _ _).1 (stands path listed)
  exact Layout.Node.holds_iff_admits.2 ⟨e, found, Layout.admits_kind_iff.2 kind⟩

theorem disc_matching (globs : Glob.Index) :
    ∀ s ∈ discRules, s.accepts globs (.ofList disc) = true := by
  have listed : ∀ s ∈ discRules,
      s.arena.someTree (["audio_ts", "video_ts", "bdmv"].map folderTest).contains = true := by
    decide +kernel
  refine fun s mem => Arena.someTree_mono (fun n asked => ?_) (listed s mem)
  obtain ⟨path, named, rfl⟩ := List.mem_map.1 (List.contains_iff_mem.1 asked)
  exact folderTest_holds globs named

/-- All rules for archives match the archive, and all rules for discs the disc. Of either kind two
are level, and the earlier of them decides. -/
theorem archive_decided :
    archive ≠ [] ∧ (∀ s ∈ archiveRules, s.accepts archive.toByteArray = true) ∧
      (Magic.Table.ofList archiveRules archiveTypes).classify archive = ⟨12⟩ ∧
      (∀ s ∈ discRules, s.accepts (.ofList [] ⟨0⟩) (.ofList disc) = true) ∧
      (Layout.Table.ofList discRules archiveTypes).classify? (.ofList [] ⟨0⟩) (.ofList disc) =
        some ⟨22⟩ := by
  have given : archive ≠ [] := by decide
  have discs := disc_matching (.ofList [] ⟨0⟩)
  obtain ⟨⟨content, -⟩, directory, -⟩ :=
    least_match_decides archiveTypes archiveRules given discRules (.ofList [] ⟨0⟩) (.ofList disc)
  obtain ⟨s, least, decided⟩ :=
    content ⟨_, List.mem_cons_self, archive_matching _ List.mem_cons_self⟩
  obtain ⟨d, leastDisc, found⟩ := directory ⟨_, List.mem_cons_self, discs _ List.mem_cons_self⟩
  have third := least.eq_of_first (k := 2) rfl (archive_matching _ (by decide)) (by decide +kernel)
  have thirdDisc := leastDisc.eq_of_first (k := 2) rfl (discs _ (by decide)) (by decide +kernel)
  exact ⟨given, archive_matching, by rw [decided, third], discs, by rw [found, thirdDisc]⟩

end MediaSniff
