/-
# MediaSniff.Proofs.Database.Beginning — answers look at a beginning

The content rules look no further than their reach, and whether a document is text is told
by its text window. What lies behind the farther of the two is never looked at: two documents
with the same beginning up to there meet the same rules and get the same answers under every
name, limit and preference (`same_answers_of_take_eq`).

A limit cuts both documents at the same place, so what is left of them has the same
beginning again. That is why the answers are compared without a limit first.
-/
import MediaSniff.Proofs.Database.ReadLimit

set_option autoImplicit false

namespace MediaSniff

namespace Database

variable {db : Database}

/-- How many leading bytes of a document answers can look at. -/
def horizon (db : Database) : Nat := max db.magicReach Magic.textWindow

theorem magicReach_le_horizon (db : Database) : db.magicReach ≤ db.horizon := le_max_left _ _

theorem textWindow_le_horizon (db : Database) : Magic.textWindow ≤ db.horizon := le_max_right _ _

/-- A beginning is empty only if the document is. -/
theorem isEmpty_take_horizon (db : Database) (data : Bytes) :
    (data.take db.horizon).isEmpty = data.isEmpty := by
  have wide : 128 ≤ db.horizon := db.textWindow_le_horizon
  have seen : db.horizon ≠ 0 := by omega
  rw [Bool.eq_iff_iff, List.isEmpty_iff, List.isEmpty_iff, List.take_eq_nil_iff]
  simp [seen]

theorem matching_take_horizon (db : Database) (data : Bytes) :
    db.magic.matching (data.take db.horizon) = db.magic.matching data :=
  Magic.Table.matching_take db.magicReach_le_horizon data

/-- **Content alone:** a beginning up to the horizon is as good as the whole. -/
theorem classifyBytes_take_horizon (db : Database) (data : Bytes) :
    db.classifyBytes (data.take db.horizon) = db.classifyBytes data := by
  rw [classifyBytes, classifyBytes, Magic.Table.classify_eq, Magic.Table.classify_eq,
    isEmpty_take_horizon, matching_take_horizon,
    Magic.looksLikeText_take db.textWindow_le_horizon]

/-- **Name and content:** a beginning up to the horizon is as good as the whole. -/
theorem classify_take_horizon (db : Database) (data : Bytes) (name : String)
    (preference : Preference) :
    db.classify (data.take db.horizon) name none preference =
      db.classify data name none preference := by
  apply classify_congr (db.isEmpty_take_horizon data) (db.matching_take_horizon data)
  intro _
  exact Magic.looksLikeText_take db.textWindow_le_horizon data

/-- What a limit leaves of two documents has the same beginning if they have. -/
theorem take_truncate_eq {data data' : Bytes} {n : Nat} (agree : data.take n = data'.take n)
    (limit : Option Nat) : (truncate limit data).take n = (truncate limit data').take n := by
  cases limit with
  | none => exact agree
  | some l =>
      show (data.take l).take n = (data'.take l).take n
      rw [List.take_take, Nat.min_comm, ← List.take_take, agree, List.take_take, Nat.min_comm,
        ← List.take_take]

/-- **Answers look at a beginning.** Two documents that agree up to the horizon, in their
bytes and, if one of them ends before it, in where they end, get the same answer from name
and content under every name, limit and preference, and the same from content alone; and they
meet the same content rules. -/
theorem same_answers_of_take_eq (db : Database) {data data' : Bytes}
    (agree : data.take db.horizon = data'.take db.horizon) :
    (∀ (name : String) (limit : Option Nat) (preference : Preference),
      db.classify data name limit preference = db.classify data' name limit preference) ∧
    db.classifyBytes data = db.classifyBytes data' ∧
    (db.magic.signatures.filter fun s => s.accepts data.toByteArray) =
      db.magic.signatures.filter fun s => s.accepts data'.toByteArray := by
  refine ⟨fun name limit preference => ?_, ?_, ?_⟩
  · -- The limit is applied before anything is looked at.
    show db.classify (truncate limit data) name none preference =
      db.classify (truncate limit data') name none preference
    rw [← classify_take_horizon db (truncate limit data), take_truncate_eq agree limit,
      classify_take_horizon]
  · rw [← classifyBytes_take_horizon db data, agree, classifyBytes_take_horizon]
  · apply List.filter_congr
    intro s mem
    have inside : s.extent ≤ db.horizon :=
      (Magic.Table.extent_le mem).trans db.magicReach_le_horizon
    rw [← Magic.Signature.accepts_take inside data, agree, Magic.Signature.accepts_take inside]

/-- Two documents of 128 letters, one of them with a control character behind. In front it
would have shown that this is no text. -/
theorem oneByteDatabase_beginning :
    let letters : Bytes := List.replicate 128 0x61
    (letters ++ [0x00]).take oneByteDatabase.horizon =
        (letters ++ [0x62, 0x63]).take oneByteDatabase.horizon ∧
      ∀ (name : String) (limit : Option Nat) (preference : Preference),
        oneByteDatabase.classify (letters ++ [0x00]) name limit preference =
          oneByteDatabase.classify (letters ++ [0x62, 0x63]) name limit preference := by
  intro letters
  have far : oneByteDatabase.horizon = letters.length := by
    rw [horizon, oneByteDatabase_magicReach]
    rfl
  have agree : (letters ++ [0x00]).take oneByteDatabase.horizon =
      (letters ++ [0x62, 0x63]).take oneByteDatabase.horizon := by
    rw [far, List.take_left, List.take_left]
  exact ⟨agree, (same_answers_of_take_eq oneByteDatabase agree).1⟩

end Database

end MediaSniff
