/-
# MediaSniff.Proofs.Database.Content — what of a document counts

An answer depends on a document by three things only: whether it is empty, which
signatures match it, and, if none does, whether it looks like text (`classify_congr`). A
name that says nothing leaves the decision to these (`classify_of_unknown`); any other has
them settled with its candidates (`classify_of_known`).
-/
import MediaSniff.Database.Classify
import MediaSniff.Proofs.Glob.Lookup

set_option autoImplicit false

namespace MediaSniff

namespace Magic

/-- The first matching signature decides, in so far as any does. -/
theorem Table.classify_eq (t : Table) (data : Bytes) :
    t.classify data =
      if data.isEmpty then t.sentinels.empty
      else (t.matching data).headD
        (if looksLikeText data then t.sentinels.text else t.sentinels.unknown) := by
  rw [classify, matching]
  split
  · rfl
  · rw [List.headD_eq_head?_getD, List.head?_map, List.head?_filter]
    dsimp only
    cases t.signatures.find? (·.accepts data.toByteArray) with
    | none => rfl
    | some found => rfl

/-- Whether a document looks like text is told by a beginning that covers the window. -/
theorem looksLikeText_take {reach : Nat} (wide : textWindow ≤ reach) (data : Bytes) :
    looksLikeText (data.take reach) = looksLikeText data := by
  rw [looksLikeText, looksLikeText, List.take_take, Nat.min_eq_left wide]

end Magic

namespace Database

variable {db : Database}

/-- A name that says nothing leaves the decision to the content. -/
theorem classify_of_unknown {name : String} (unknown : db.globs.best name = db.sentinels.unknown)
    (data : Bytes) (limit : Option Nat) (preference : Preference) :
    db.classify data name limit preference = db.magic.classify (truncate limit data) := by
  rw [Glob.Index.best] at unknown
  rw [classify]
  cases named : db.globs.candidates name with
  | nil => rfl
  | cons c rest =>
      rw [named] at unknown
      exact if_pos unknown

/-- A name that says something has its content settled with it. -/
theorem classify_of_known {name : String} (known : db.globs.best name ≠ db.sentinels.unknown)
    (data : Bytes) (limit : Option Nat) (preference : Preference) :
    db.classify data name limit preference =
      db.settle (db.globs.candidates name) (db.globs.best name) (truncate limit data)
        preference := by
  rw [Glob.Index.best] at known ⊢
  rw [classify]
  cases named : db.globs.candidates name with
  | nil => exact absurd named (Glob.Index.candidates_ne_nil db.globs name)
  | cons c rest =>
      rw [named] at known
      exact if_neg known

/-- **What of a document counts.** -/
theorem classify_congr {data data' : Bytes} (empty : data.isEmpty = data'.isEmpty)
    (matching : db.magic.matching data = db.magic.matching data')
    (text : db.magic.matching data = [] → Magic.looksLikeText data = Magic.looksLikeText data')
    (name : String) (preference : Preference) :
    db.classify data name none preference = db.classify data' name none preference := by
  have content : db.contentTypes data = db.contentTypes data' := by
    rw [contentTypes, contentTypes, ← matching]
    split
    · rename_i unmatched
      rw [text unmatched]
    · rfl
  have alone : db.magic.classify data = db.magic.classify data' := by
    rw [Magic.Table.classify_eq, Magic.Table.classify_eq, ← matching, ← empty]
    cases matched : db.magic.matching data with
    | nil => rw [text matched]
    | cons first rest => rfl
  by_cases known : db.globs.best name = db.sentinels.unknown
  · rw [classify_of_unknown known, classify_of_unknown known]
    exact alone
  · rw [classify_of_known known, classify_of_known known]
    show db.settle _ _ data preference = db.settle _ _ data' preference
    rw [settle, settle, ← empty, ← content]

end Database

end MediaSniff
