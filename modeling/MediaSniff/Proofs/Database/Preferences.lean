/-
# MediaSniff.Proofs.Database.Preferences — what a preference changes

A preference is asked at two places only: of an empty document it says whether that counts
for more than its name, and where no candidate agrees with the content it says which of
the two is the answer (`settle_of_apart`). The default preference is not a third opinion.
For an empty document, and for a name with exactly one candidate, it trusts the name, and
otherwise the content (`settle_default`); the two are what `classify_preferences` puts
together.
-/
import MediaSniff.Proofs.Database.Agreement

set_option autoImplicit false

namespace MediaSniff.Database

variable {db : Database} {candidates : List Glob.Candidate} {best : TypeId} {data : Bytes}

theorem contentWins_default (count : Nat) :
    contentWins .default count = contentWins (if count = 1 then .glob else .magic) count := by
  by_cases single : count = 1
  · subst single
    rfl
  · rw [if_neg single]
    simpa [contentWins] using single

/-- Where nothing agrees, the preference decides between the first type of the content and
the best candidate. -/
theorem settle_of_apart (notEmpty : data ≠ [])
    (apart : ∀ m ∈ db.contentTypes data, ¬ Agrees db candidates m) (preference : Preference) :
    db.settle candidates best data preference =
      if contentWins preference candidates.length then (db.contentTypes data).headD best
      else best := by
  have unsettled : (db.contentTypes data).findSome? (db.refine? candidates) = none :=
    List.findSome?_eq_none_iff.2 fun m mem => refine?_eq_none.2 (apart m mem)
  rw [settle, if_neg (by simpa using notEmpty)]
  simp only [unsettled]
  cases db.contentTypes data with
  | nil => simp
  | cons first rest => rfl

/-- **The default preference** is that for the name if there is nothing to read or only one
candidate, and that for the content otherwise. -/
theorem settle_default (db : Database) (candidates : List Glob.Candidate) (best : TypeId)
    (data : Bytes) :
    db.settle candidates best data .default =
      db.settle candidates best data
        (if data = [] ∨ candidates.length = 1 then .glob else .magic) := by
  by_cases empty : data = []
  · subst empty
    rw [if_pos (Or.inl rfl)]
    rfl
  · have written : data.isEmpty = false := by simpa using empty
    simp only [empty, false_or, settle, written, contentWins_default, Bool.false_eq_true, if_false]

/-- **How the preferences relate.** The default preference gives the answer of the
preference for the name if the document is empty or the name has exactly one candidate, and
that of the preference for the content in every other case. Where the name says something
and the document holds something, but no candidate is, or stands below, a type of the
content, the two differ as far as they can: one answers with the best candidate, the other
with the first type of the content, if there is any. -/
theorem classify_preferences (db : Database) (data : Bytes) (name : String)
    (limit : Option Nat) :
    (truncate limit data = [] ∨ (db.globs.candidates name).length = 1 →
      db.classify data name limit .default = db.classify data name limit .glob) ∧
    (¬ (truncate limit data = [] ∨ (db.globs.candidates name).length = 1) →
      db.classify data name limit .default = db.classify data name limit .magic) ∧
    (db.globs.best name ≠ db.sentinels.unknown → truncate limit data ≠ [] →
      (∀ m ∈ db.contentTypes (truncate limit data),
        ¬ Agrees db (db.globs.candidates name) m) →
      db.classify data name limit .glob = db.globs.best name ∧
      db.classify data name limit .magic =
        (db.contentTypes (truncate limit data)).headD (db.globs.best name)) := by
  have default : db.classify data name limit .default = db.classify data name limit
      (if truncate limit data = [] ∨ (db.globs.candidates name).length = 1 then .glob
        else .magic) := by
    by_cases known : db.globs.best name = db.sentinels.unknown
    · rw [classify_of_unknown known, classify_of_unknown known]
    · rw [classify_of_known known, classify_of_known known, settle_default]
  refine ⟨fun trusted => ?_, fun several => ?_, fun known notEmpty apart => ⟨?_, ?_⟩⟩
  · rw [default, if_pos trusted]
  · rw [default, if_neg several]
  · rw [classify_of_known known, settle_of_apart notEmpty apart]
    rfl
  · rw [classify_of_known known, settle_of_apart notEmpty apart]
    rfl

/-- Notes are written in a markup language, or are the first thing to read. -/
def noteNames : List Glob :=
  [⟨.trailing (Text.utf8 ".md"), false, 60, ⟨5⟩⟩, ⟨.leading (Text.utf8 "readme"), false, 50, ⟨6⟩⟩]

def notes : Database :=
  let sentinels : Sentinels := ⟨⟨0⟩, ⟨1⟩, ⟨2⟩, ⟨3⟩, ⟨4⟩⟩
  { registry := .ofList
      [{ name := Sentinels.unknownName }, { name := Sentinels.textName },
        { name := Sentinels.emptyName }, { name := Sentinels.directoryName },
        { name := Sentinels.xmlName }, { name := "text/markdown", superclasses := [⟨1⟩] },
        { name := "text/x-readme", superclasses := [⟨1⟩] }, { name := "image/png" }]
    globs := .ofList noteNames sentinels.unknown
    magic := .ofList [⟨⟨7⟩, 50, .ofForest [.node ⟨0, 0, [0x89, 0x50], none⟩ []]⟩] sentinels
    roots := .ofList [] sentinels
    layouts := .ofList [] sentinels
    sentinels }

theorem notes_candidates :
    (notes.globs.candidates "README.md").Perm [⟨60, ⟨5⟩⟩, ⟨50, ⟨6⟩⟩] := by
  have accepted : noteNames.filter (·.acceptsName "README.md") = noteNames := by decide +kernel
  have both := Glob.candidates_perm notes.sentinels.unknown
    (show noteNames.filter (·.acceptsName "README.md") ≠ [] by
      rw [accepted]
      exact List.cons_ne_nil _ _)
  rwa [accepted] at both

theorem notes_single : notes.globs.candidates "todo.md" = [⟨60, ⟨5⟩⟩] := by
  have accepted : noteNames.filter (·.acceptsName "todo.md") = noteNames.take 1 := by
    decide +kernel
  have one := Glob.candidates_perm notes.sentinels.unknown
    (show noteNames.filter (·.acceptsName "todo.md") ≠ [] by
      rw [accepted]
      exact List.cons_ne_nil _ _)
  rw [accepted] at one
  exact List.perm_singleton.1 one

theorem notes_content : notes.contentTypes [0x89, 0x50, 0x4E] = [⟨7⟩] := by
  simp only [contentTypes, Magic.Table.matching, notes, Magic.Table.ofList,
    List.mergeSort_singleton]
  decide +kernel

theorem notes_isA {c : Glob.Candidate} (mem : c.type = ⟨5⟩ ∨ c.type = ⟨6⟩) :
    notes.registry.isA c.type ⟨7⟩ = false := by
  rcases mem with is | is <;>
    simp [is, Registry.isA, Registry.reaches, Registry.parents, Registry.get?, notes,
      Registry.ofList]

/-- A picture under the name of a note: what is trusted makes the difference, and the
default trusts the name only if it has a single candidate. -/
theorem notes_preferences :
    notes.globs.best "README.md" ≠ ⟨7⟩ ∧
      notes.classify [0x89, 0x50, 0x4E] "README.md" none .glob = notes.globs.best "README.md" ∧
      notes.classify [0x89, 0x50, 0x4E] "README.md" none .magic = ⟨7⟩ ∧
      notes.classify [0x89, 0x50, 0x4E] "README.md" none .default = ⟨7⟩ ∧
      notes.classify [0x89, 0x50, 0x4E] "todo.md" none .default = ⟨5⟩ := by
  have type : ∀ c ∈ [(⟨60, ⟨5⟩⟩ : Glob.Candidate), ⟨50, ⟨6⟩⟩], c.type = ⟨5⟩ ∨ c.type = ⟨6⟩ := by
    decide
  have apart : ∀ m ∈ notes.contentTypes [0x89, 0x50, 0x4E],
      ¬ Agrees notes (notes.globs.candidates "README.md") m := by
    rw [notes_content]
    rintro m here ⟨c, mem, below⟩
    rw [List.mem_singleton.1 here, notes_isA (type c (notes_candidates.mem_iff.1 mem))] at below
    cases below
  have apartSingle : ∀ m ∈ notes.contentTypes [0x89, 0x50, 0x4E],
      ¬ Agrees notes (notes.globs.candidates "todo.md") m := by
    rw [notes_content, notes_single]
    rintro m here ⟨c, mem, below⟩
    rw [List.mem_singleton.1 here, List.mem_singleton.1 mem,
      notes_isA (c := ⟨60, ⟨5⟩⟩) (Or.inl rfl)] at below
    cases below
  obtain ⟨c, mem, best⟩ := Glob.Index.exists_best notes.globs "README.md"
  have noteType := type c (notes_candidates.mem_iff.1 mem)
  have known : notes.globs.best "README.md" ≠ notes.sentinels.unknown := by
    rw [← best]
    rcases noteType with is | is <;> rw [is] <;> decide
  have bestSingle : notes.globs.best "todo.md" = ⟨5⟩ := by
    rw [Glob.Index.best, notes_single]
  have several : ¬ (truncate none [0x89, 0x50, 0x4E] = [] ∨
      (notes.globs.candidates "README.md").length = 1) := by
    rw [notes_candidates.length_eq]
    decide
  have single : truncate none [0x89, 0x50, 0x4E] = [] ∨
      (notes.globs.candidates "todo.md").length = 1 := by
    rw [notes_single]
    exact Or.inr rfl
  obtain ⟨-, content, differ⟩ :=
    classify_preferences notes [0x89, 0x50, 0x4E] "README.md" none
  obtain ⟨trusted, -, differSingle⟩ :=
    classify_preferences notes [0x89, 0x50, 0x4E] "todo.md" none
  obtain ⟨byName, byContent⟩ := differ known (List.cons_ne_nil _ _) apart
  have first : notes.classify [0x89, 0x50, 0x4E] "README.md" none .magic = ⟨7⟩ := by
    rw [byContent]
    exact congrArg (List.headD · _) notes_content
  refine ⟨?_, byName, first, (content several).trans first, ?_⟩
  · rw [← best]
    rcases noteType with is | is <;> rw [is] <;> decide
  · have known' : notes.globs.best "todo.md" ≠ notes.sentinels.unknown := by
      rw [bestSingle]
      decide
    rw [trusted single, (differSingle known' (List.cons_ne_nil _ _) apartSingle).1, bestSingle]

end MediaSniff.Database
