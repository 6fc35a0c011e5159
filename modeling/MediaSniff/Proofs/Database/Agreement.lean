/-
# MediaSniff.Proofs.Database.Agreement — where name and content agree

Name and content agree if some candidate of the name is a type that the content speaks
for, or stands below one. Several candidates may agree with several such types.
`FirstAgreement` says which pair counts: of the types of the content the first with which
any candidate agrees, and of the candidates the first that agrees with that one. If
anything agrees there is such a pair (`exists_firstAgreement`), and its candidate is the
answer (`classify_of_agreement`). The preference is only asked where nothing agrees.
-/
import MediaSniff.Proofs.Database.Content

set_option autoImplicit false

namespace MediaSniff.Database

variable {db : Database} {candidates : List Glob.Candidate} {found : List TypeId}

/-- Some candidate is a type or stands below it. -/
def Agrees (db : Database) (candidates : List Glob.Candidate) (m : TypeId) : Prop :=
  ∃ c ∈ candidates, db.registry.isA c.type m = true

/-- The pair that decides: `m` is the first type of the content with which any candidate
agrees, and `c` is the first candidate that agrees with `m`. -/
structure FirstAgreement (db : Database) (candidates : List Glob.Candidate)
    (found : List TypeId) (m : TypeId) (c : Glob.Candidate) : Prop where
  isA : db.registry.isA c.type m = true
  inContent : ∃ before after, found = before ++ m :: after ∧
    ∀ m' ∈ before, ¬ Agrees db candidates m'
  inName : ∃ before after, candidates = before ++ c :: after ∧
    ∀ c' ∈ before, db.registry.isA c'.type m = false

theorem refine?_eq_none {m : TypeId} :
    db.refine? candidates m = none ↔ ¬ Agrees db candidates m := by
  rw [refine?, Option.map_eq_none_iff, List.find?_eq_none]
  constructor
  · rintro apart ⟨c, mem, below⟩
    exact apart c mem below
  · intro apart c mem below
    exact apart ⟨c, mem, below⟩

/-- A type of the content is refined to the type of the first candidate that agrees. -/
theorem refine?_eq_some {m t : TypeId} :
    db.refine? candidates m = some t ↔
      ∃ c, c.type = t ∧ db.registry.isA c.type m = true ∧
        ∃ before after, candidates = before ++ c :: after ∧
          ∀ c' ∈ before, db.registry.isA c'.type m = false := by
  rw [refine?, Option.map_eq_some_iff]
  constructor
  · rintro ⟨c, first, same⟩
    obtain ⟨below, before, after, split, apart⟩ := List.find?_eq_some_iff_append.1 first
    refine ⟨c, same, below, before, after, split, fun c' mem => ?_⟩
    simpa using apart c' mem
  · rintro ⟨c, same, below, before, after, split, apart⟩
    refine ⟨c, List.find?_eq_some_iff_append.2 ⟨below, before, after, split, ?_⟩, same⟩
    intro c' mem
    simpa using apart c' mem

/-- What content and name are reconciled to is the candidate of the first agreement. -/
theorem findSome?_refine?_eq_some {t : TypeId} :
    found.findSome? (db.refine? candidates) = some t ↔
      ∃ m c, c.type = t ∧ FirstAgreement db candidates found m c := by
  rw [List.findSome?_eq_some_iff]
  constructor
  · rintro ⟨before, m, after, split, refined, apart⟩
    obtain ⟨c, same, below, inName⟩ := refine?_eq_some.1 refined
    refine ⟨m, c, same, below, ⟨before, after, split, fun m' mem => ?_⟩, inName⟩
    exact refine?_eq_none.1 (apart m' mem)
  · rintro ⟨m, c, same, below, ⟨before, after, split, apart⟩, inName⟩
    refine ⟨before, m, after, split, refine?_eq_some.2 ⟨c, same, below, inName⟩, ?_⟩
    intro m' mem
    exact refine?_eq_none.2 (apart m' mem)

/-- If anything agrees, there is a first agreement. -/
theorem exists_firstAgreement (agree : ∃ m ∈ found, Agrees db candidates m) :
    ∃ m c, FirstAgreement db candidates found m c := by
  cases settled : found.findSome? (db.refine? candidates) with
  | some t =>
      obtain ⟨m, c, -, first⟩ := findSome?_refine?_eq_some.1 settled
      exact ⟨m, c, first⟩
  | none =>
      obtain ⟨m, mem, agrees⟩ := agree
      exact absurd agrees (refine?_eq_none.1 (List.findSome?_eq_none_iff.1 settled m mem))

/-- The first agreement is the answer, whatever the preference. -/
theorem settle_of_firstAgreement {m : TypeId} {c : Glob.Candidate} {best : TypeId} {data : Bytes}
    (notEmpty : data ≠ []) (first : FirstAgreement db candidates (db.contentTypes data) m c)
    (preference : Preference) : db.settle candidates best data preference = c.type := by
  have settled := findSome?_refine?_eq_some.2 ⟨m, c, rfl, first⟩
  rw [settle, if_neg (by simpa using notEmpty)]
  simp only [settled]

/-- **Agreement decides.** If any candidate of a name that says something is, or stands
below, a type of the content that is looked at, the answer is the candidate of the first
agreement, under every preference. -/
theorem classify_of_agreement (db : Database) (data : Bytes) (name : String)
    (limit : Option Nat) (notEmpty : truncate limit data ≠ [])
    (known : db.globs.best name ≠ db.sentinels.unknown)
    (agree : ∃ m ∈ db.contentTypes (truncate limit data),
      Agrees db (db.globs.candidates name) m) :
    ∃ m c, FirstAgreement db (db.globs.candidates name)
        (db.contentTypes (truncate limit data)) m c ∧
      ∀ preference, db.classify data name limit preference = c.type := by
  obtain ⟨m, c, first⟩ := exists_firstAgreement agree
  refine ⟨m, c, first, fun preference => ?_⟩
  rw [classify_of_known known]
  exact settle_of_firstAgreement notEmpty first preference

/-- Books are archives, but plain text lays the stronger claim to their names. -/
def bookNames : List Glob :=
  [⟨.trailing (Text.utf8 ".epub"), false, 60, ⟨1⟩⟩,
    ⟨.trailing (Text.utf8 ".epub"), false, 50, ⟨6⟩⟩]

def books : Database :=
  let sentinels : Sentinels := ⟨⟨0⟩, ⟨1⟩, ⟨2⟩, ⟨3⟩, ⟨4⟩⟩
  { registry := .ofList
      [{ name := Sentinels.unknownName }, { name := Sentinels.textName },
        { name := Sentinels.emptyName }, { name := Sentinels.directoryName },
        { name := Sentinels.xmlName }, { name := "application/zip" },
        { name := "application/epub+zip", superclasses := [⟨5⟩] }]
    globs := .ofList bookNames sentinels.unknown
    magic := .ofList [⟨⟨5⟩, 50, .ofForest [.node ⟨0, 0, [0x50, 0x4B], none⟩ []]⟩] sentinels
    roots := .ofList [] sentinels
    layouts := .ofList [] sentinels
    sentinels }

theorem books_candidates :
    (books.globs.candidates "a.epub").Perm [⟨60, ⟨1⟩⟩, ⟨50, ⟨6⟩⟩] := by
  have accepted : bookNames.filter (·.acceptsName "a.epub") = bookNames := by decide +kernel
  have both := Glob.candidates_perm books.sentinels.unknown
    (show bookNames.filter (·.acceptsName "a.epub") ≠ [] by
      rw [accepted]
      exact List.cons_ne_nil _ _)
  rwa [accepted] at both

theorem books_best : books.globs.best "a.epub" ≠ books.sentinels.unknown := by
  obtain ⟨c, mem, best⟩ := Glob.Index.exists_best books.globs "a.epub"
  have known : ∀ c ∈ [(⟨60, ⟨1⟩⟩ : Glob.Candidate), ⟨50, ⟨6⟩⟩],
      c.type ≠ books.sentinels.unknown := by decide
  rw [← best]
  exact known c (books_candidates.mem_iff.1 mem)

theorem books_content : books.contentTypes [0x50, 0x4B, 0x03] = [⟨5⟩] := by
  simp only [contentTypes, Magic.Table.matching, books, Magic.Table.ofList,
    List.mergeSort_singleton]
  decide +kernel

/-- A book is neither the text that its name suggests most nor the archive that it begins
like. -/
theorem books_agreement :
    books.globs.best "a.epub" ≠ books.sentinels.unknown ∧
      ∀ preference, books.classify [0x50, 0x4B, 0x03] "a.epub" none preference = ⟨6⟩ := by
  have below : books.registry.isA ⟨6⟩ ⟨5⟩ = true := by
    simp [Registry.isA, Registry.reaches, Registry.parents, Registry.get?, books, Registry.ofList]
  have apart : books.registry.isA ⟨1⟩ ⟨5⟩ = false := by
    simp [Registry.isA, Registry.reaches, Registry.parents, Registry.get?, books, Registry.ofList]
  have agree : Agrees books (books.globs.candidates "a.epub") ⟨5⟩ :=
    ⟨⟨50, ⟨6⟩⟩, books_candidates.mem_iff.2 (by decide), below⟩
  have content : (⟨5⟩ : TypeId) ∈ books.contentTypes [0x50, 0x4B, 0x03] := by
    rw [books_content]
    exact List.mem_singleton.2 rfl
  obtain ⟨m, c, first, answer⟩ := classify_of_agreement books [0x50, 0x4B, 0x03] "a.epub" none
    (List.cons_ne_nil _ _) books_best ⟨⟨5⟩, content, agree⟩
  refine ⟨books_best, fun preference => ?_⟩
  rw [answer preference]
  obtain ⟨isA, ⟨_, _, inContent, -⟩, _, _, inName, -⟩ := first
  have type : m = ⟨5⟩ := by
    rw [← List.mem_singleton, ← books_content]
    exact inContent ▸ List.mem_append_right _ List.mem_cons_self
  have one : c ∈ [(⟨60, ⟨1⟩⟩ : Glob.Candidate), ⟨50, ⟨6⟩⟩] := by
    rw [← books_candidates.mem_iff, inName]
    exact List.mem_append_right _ List.mem_cons_self
  rw [type] at isA
  rcases List.mem_cons.1 one with rfl | last
  · rw [apart] at isA
    cases isA
  · rw [List.mem_singleton.1 last]

end MediaSniff.Database
