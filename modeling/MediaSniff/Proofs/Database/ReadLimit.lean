/-
# MediaSniff.Proofs.Database.ReadLimit — reading no more than the rules look at

Without a limit of its own a stream is read as far as the content rules can look. For the
rules this is as good as the whole document, but two answers come from no rule: that a
document is empty, and that it looks like text. They need the first byte and the text
window, and the content rules may look at less than that. `BeginningSpeaks` says when the
part that is read does for them too; exactly then the stream gets the answer of the whole
document under every name (`classifyStream_without_limit`). If the rules reach as far as
the text window it always does.

A database whose only content rule looks at one byte is one for which it does not: a
letter and a control character behind it are read as a text (`oneByteRule_differs`).
-/
import MediaSniff.Database.Reader
import MediaSniff.Proofs.Database.Content
import MediaSniff.Proofs.Database.Loading
import MediaSniff.Proofs.Glob.Width
import MediaSniff.Proofs.Grouping
import MediaSniff.Proofs.Magic.Reach
import MediaSniff.Proofs.Registry.Lookup
import MediaSniff.Proofs.Stream

set_option autoImplicit false

namespace MediaSniff.Database

variable {d : Descriptor} {db : Database}

/-! ## What is known of a loaded database -/

/-- The empty name says nothing. -/
theorem Loading.best_empty (l : Loading d db) : db.globs.best "" = db.sentinels.unknown := by
  have nowhere : l.rules.globs.filter (·.acceptsName "") = [] := by
    rw [List.filter_eq_nil_iff]
    intro g mem
    obtain ⟨k, inside, rule, written, done⟩ := l.exists_globRule mem
    rw [Glob.acceptsName_empty done]
    exact Bool.false_ne_true
  rw [Glob.Index.best, l.globs_eq, Glob.candidates_of_accepted_nil _ nowhere]

theorem Loading.matching_eq_nil (l : Loading d db) (blind : db.magicReach = 0) (data : Bytes) :
    db.magic.matching data = [] := by
  refine Magic.Table.matching_eq_nil ?_ blind data
  intro s mem
  rw [l.magic_eq, Magic.Table.ofList, List.mem_mergeSort] at mem
  obtain ⟨k, inside, rule, written, done⟩ := l.exists_magicRule mem
  exact ⟨_, _, _, done⟩

theorem Loading.magic_sentinels (l : Loading d db) : db.magic.sentinels = db.sentinels := by
  rw [l.magic_eq]
  rfl

/-! ## The part that is read -/

/-- The beginning that is read says as much as the whole document: the document is empty,
or something is read, and if no signature matches, what is read looks like text exactly if
the whole does. -/
def BeginningSpeaks (db : Database) (data : Bytes) : Prop :=
  data = [] ∨ 0 < db.magicReach ∧
    (db.magic.matching data ≠ [] ∨
      Magic.looksLikeText (data.take db.magicReach) = Magic.looksLikeText data)

theorem matching_take_magicReach (db : Database) (data : Bytes) :
    db.magic.matching (data.take db.magicReach) = db.magic.matching data :=
  Magic.Table.matching_take (Nat.le_refl _) data

theorem beginningSpeaks_of_textWindow_le (wide : Magic.textWindow ≤ db.magicReach)
    (data : Bytes) : BeginningSpeaks db data := by
  refine Or.inr ⟨?_, Or.inr (Magic.looksLikeText_take wide data)⟩
  exact Nat.lt_of_lt_of_le (by decide : 0 < Magic.textWindow) wide

/-- If the beginning says as much, the answer is that of the whole document. -/
theorem classify_take_of_beginningSpeaks {data : Bytes} (speaks : BeginningSpeaks db data)
    (name : String) (preference : Preference) :
    db.classify (data.take db.magicReach) name none preference =
      db.classify data name none preference := by
  rcases speaks with rfl | ⟨sees, agree⟩
  · rw [List.take_nil]
  · refine classify_congr ?_ (matching_take_magicReach db data) ?_ name preference
    · cases data with
      | nil => rw [List.take_nil]
      | cons b rest =>
          obtain ⟨reach, long⟩ := Nat.exists_eq_succ_of_ne_zero (Nat.ne_of_gt sees)
          rw [long]
          rfl
    · intro unmatched
      rw [matching_take_magicReach] at unmatched
      exact agree.resolve_left fun matched => matched unmatched

/-- If content alone gets the same answer, the beginning says as much: nothing, text and
unknown are told apart by their sentinels. -/
theorem beginningSpeaks_of_classify_take (l : Loading d db) {data : Bytes}
    (same : db.magic.classify (data.take db.magicReach) = db.magic.classify data) :
    BeginningSpeaks db data := by
  have five := l.nodup_sentinels
  simp only [List.nodup_cons, List.mem_cons, not_or] at five
  obtain ⟨⟨unknown_text, unknown_empty, -⟩, ⟨text_empty, -⟩, -⟩ := five
  rw [Magic.Table.classify_eq, Magic.Table.classify_eq, l.magic_sentinels] at same
  by_cases nothing : data = []
  · exact Or.inl nothing
  · have written : data.isEmpty = false := by simpa using nothing
    rw [written, if_neg Bool.false_ne_true] at same
    by_cases reach : db.magicReach = 0
    · rw [reach, List.take_zero, List.isEmpty_nil, if_pos rfl, l.matching_eq_nil reach data,
        List.headD_nil] at same
      split at same
      · exact absurd same.symm text_empty
      · exact absurd same.symm unknown_empty
    · refine Or.inr ⟨Nat.pos_of_ne_zero reach, ?_⟩
      have begun : (data.take db.magicReach).isEmpty = false := by
        simp [nothing, reach]
      rw [begun, if_neg Bool.false_ne_true, matching_take_magicReach] at same
      cases matched : db.magic.matching data with
      | cons first rest => exact Or.inl (List.cons_ne_nil first rest)
      | nil =>
          rw [matched, List.headD_nil, List.headD_nil] at same
          refine Or.inr ?_
          cases beginning : Magic.looksLikeText (data.take db.magicReach) <;>
            cases whole : Magic.looksLikeText data <;>
            simp only [beginning, whole, if_true, Bool.false_eq_true, if_false] at same
          · rfl
          · exact absurd same unknown_text
          · exact absurd same.symm unknown_text
          · rfl

/-! ## Streams -/

theorem classifyStream_of_readAll {stream : Stream} {data : Bytes}
    (read : stream.readAll = .ok data) (name : String) {config : Config}
    (unlimited : config.readLimit = none) :
    db.classifyStream stream name config =
      .ok (db.classify (data.take db.magicReach) name none config.preference) := by
  have limit : config.effectiveReadLimit db.magicReach = db.magicReach := by
    rw [Config.effectiveReadLimit, unlimited]
  rw [classifyStream, limit, Stream.readUpTo_of_readAll read]

/-- **A stream read without a limit.** The answer is that of the part of the document that
the content rules can look at. It is that of the whole document under every name and every
preference exactly if the beginning says as much as the whole, and so always if the rules
reach as far as the text window. -/
theorem classifyStream_without_limit (loaded : Database.ofDescriptor d = .ok db)
    {stream : Stream} {data : Bytes} (read : stream.readAll = .ok data) :
    (∀ (name : String) (config : Config), config.readLimit = none →
      db.classifyStream stream name config =
        .ok (db.classify (data.take db.magicReach) name none config.preference)) ∧
    ((∀ (name : String) (config : Config), config.readLimit = none →
      db.classifyStream stream name config =
        .ok (db.classify data name none config.preference)) ↔ BeginningSpeaks db data) ∧
    (Magic.textWindow ≤ db.magicReach → BeginningSpeaks db data) := by
  obtain ⟨l⟩ := ofDescriptor_eq_ok.1 loaded
  refine ⟨fun name config unlimited => classifyStream_of_readAll read name unlimited,
    ⟨fun all => ?_, fun speaks name config unlimited => ?_⟩,
    fun wide => beginningSpeaks_of_textWindow_le wide data⟩
  · have here := all "" {} rfl
    rw [classifyStream_of_readAll read "" rfl, Except.ok.injEq,
      classify_of_unknown l.best_empty, classify_of_unknown l.best_empty] at here
    exact beginningSpeaks_of_classify_take l here
  · rw [classifyStream_of_readAll read name unlimited,
      classify_take_of_beginningSpeaks speaks name config.preference]

/-! ## A rule that looks at one byte -/

/-- The sentinels, and a type of the documents that begin with a zero byte. -/
def oneByteRule : Descriptor where
  entries := [{ name := Sentinels.unknownName }, { name := Sentinels.textName },
    { name := Sentinels.emptyName }, { name := Sentinels.directoryName },
    { name := Sentinels.xmlName },
    { name := "application/x-nul"
      magic := [{ tests := [{ offset := "0", kind := "byte", value := "0" }] }] }]

def nulSignature : Magic.Signature := ⟨⟨5⟩, 50, .ofForest [.node ⟨0, 0, [0], none⟩ []]⟩

def oneByteDatabase : Database :=
  let sentinels : Sentinels := ⟨⟨0⟩, ⟨1⟩, ⟨2⟩, ⟨3⟩, ⟨4⟩⟩
  { registry := .ofList (oneByteRule.entries.map recordOf)
    globs := .ofList [] sentinels.unknown
    magic := .ofList [nulSignature] sentinels
    roots := .ofList [] sentinels
    layouts := .ofList [] sentinels
    sentinels }

/-- Records alone say nothing of superclasses. -/
theorem parents_ofList_recordOf (entries : List Descriptor.Entry) (id : TypeId) :
    (Registry.ofList (entries.map recordOf)).parents id = [] := by
  rw [Registry.parents, Registry.get?]
  cases found : (Registry.ofList (entries.map recordOf)).records[id.index]? with
  | none => rfl
  | some record =>
      have mem : record ∈ entries.map recordOf := by
        rw [← List.mem_toArray]
        exact Array.mem_of_getElem? found
      obtain ⟨e, -, rfl⟩ := List.mem_map.1 mem
      rfl

theorem cycleAbove?_eq_none {r : Registry} (flat : ∀ id, r.parents id = [])
    (finished ids : List TypeId) : r.cycleAbove? finished ids = none := by
  induction ids generalizing finished with
  | nil => rfl
  | cons id ids ih =>
      rw [Registry.cycleAbove?]
      split
      · exact ih finished
      · rw [flat, Registry.followUp, Registry.followUp]
        exact ih _

theorem oneByteRule_loads : Database.ofDescriptor oneByteRule = .ok oneByteDatabase := by
  refine ofDescriptor_eq_ok.2 ⟨{
    merged := oneByteRule.entries
    rules := { magic := [nulSignature] }
    merge_eq := ?_
    registry_eq := registryOf_eq_ok.2 ⟨_, rfl, rfl, ?_⟩
    sentinels_eq := ?_
    rules_eq := rfl
    globs_eq := rfl
    magic_eq := rfl
    roots_eq := rfl
    layouts_eq := rfl }⟩
  · have valid : (oneByteRule.entries.find? fun e => !Descriptor.isMediaType e.name) = none := rfl
    rw [Descriptor.merge, valid, groups_eq]
    rfl
  · exact cycleAbove?_eq_none (parents_ofList_recordOf _) _ _
  · rw [sentinelsOf_eq_ok]
    simp only [sentinel_eq_ok, oneByteDatabase, Registry.lookup?_ofList]
    decide +kernel

theorem oneByteDatabase_magic :
    oneByteDatabase.magic = ⟨[nulSignature], oneByteDatabase.sentinels⟩ := by
  rw [oneByteDatabase, Magic.Table.ofList, List.mergeSort_singleton]

theorem oneByteDatabase_magicReach : oneByteDatabase.magicReach = 1 := by
  rw [magicReach, oneByteDatabase_magic]
  decide

/-- Two letters are as good as one. -/
theorem oneByteDatabase_letters :
    BeginningSpeaks oneByteDatabase [0x61, 0x62] ∧
      ∀ (name : String) (config : Config), config.readLimit = none →
        oneByteDatabase.classifyStream [.bytes [0x61], .fault .interrupted, .bytes [0x62]] name
            config =
          .ok (oneByteDatabase.classify [0x61, 0x62] name none config.preference) := by
  have speaks : BeginningSpeaks oneByteDatabase [0x61, 0x62] := by
    rw [BeginningSpeaks, oneByteDatabase_magicReach]
    exact Or.inr ⟨Nat.one_pos, Or.inr (by decide)⟩
  exact ⟨speaks, (classifyStream_without_limit oneByteRule_loads rfl).2.1.2 speaks⟩

/-- A control character behind a letter is not read, and the letter alone is a text. -/
theorem oneByteRule_differs :
    ¬ ∀ (d : Descriptor) (db : Database), Database.ofDescriptor d = .ok db →
      ∀ (stream : Stream) (data : Bytes), stream.readAll = .ok data →
        ∀ (name : String) (config : Config), config.readLimit = none →
          db.classifyStream stream name config =
            .ok (db.classify data name none config.preference) := by
  intro claimed
  have same := claimed oneByteRule oneByteDatabase oneByteRule_loads [.bytes [0x61, 0x01]]
    [0x61, 0x01] rfl "" {} rfl
  obtain ⟨l⟩ := ofDescriptor_eq_ok.1 oneByteRule_loads
  rw [classifyStream_of_readAll rfl "" rfl, oneByteDatabase_magicReach,
    classify_of_unknown l.best_empty, classify_of_unknown l.best_empty,
    oneByteDatabase_magic] at same
  revert same
  decide +kernel

end MediaSniff.Database
