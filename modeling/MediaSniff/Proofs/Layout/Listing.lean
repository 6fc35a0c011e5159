/-
# MediaSniff.Proofs.Layout.Listing — the order in which a directory is listed

No two entries of a directory have one path, but two paths may differ in case only. Both are
then filed under one lowercased path, and the one that is listed later stands there alone. So
the order of a listing can be seen by tests that ignore case, unless the entries that fall
together are alike in all that a test asks for (`Alike`). `same_answers_iff_alike` says that
nothing else of a directory depends on the order, and that this does.
-/
import MediaSniff.Layout.Table
import MediaSniff.Proofs.Layout.Meaning

set_option autoImplicit false

namespace MediaSniff.Layout

open Descriptor (LayoutRule)

variable {globs : Glob.Index} {entries listed : List (String × Entry)}

/-- No test can tell the entries from each other, if the same lies below both. -/
structure Alike (globs : Glob.Index) (e e' : Entry) : Prop where
  kind : e.kind = e'.kind
  executable : e.isExecutable = e'.isExecutable
  best : globs.best e.name = globs.best e'.name
  filled : e.kind ≠ .directory → (0 < e.size ↔ 0 < e'.size)

theorem Alike.refl (globs : Glob.Index) (e : Entry) : Alike globs e e :=
  ⟨rfl, rfl, rfl, fun _ => Iff.rfl⟩

/-! ## What stands at a path -/

theorem exists_mem_of_entryAt {matchCase : Bool} {path : String} {e : Entry}
    (found : entryAt entries matchCase path = some e) :
    ∃ q, (q, e) ∈ entries ∧ filedUnder matchCase q = path := by
  obtain ⟨⟨q, _⟩, stands, rfl⟩ := Option.map_eq_some_iff.1 found
  refine ⟨q, List.mem_reverse.1 (List.mem_of_find?_eq_some stands), ?_⟩
  simpa using List.find?_some stands

theorem exists_entryAt_of_mem (matchCase : Bool) {q : String} {e : Entry}
    (mem : (q, e) ∈ entries) :
    ∃ e', entryAt entries matchCase (filedUnder matchCase q) = some e' := by
  rw [← Option.isSome_iff_exists, entryAt, Option.isSome_map, List.find?_isSome]
  exact ⟨(q, e), List.mem_reverse.2 mem, beq_self_eq_true _⟩

/-- What is listed last stands at its path. -/
theorem entryAt_concat (e : String × Entry) (matchCase : Bool) :
    entryAt (entries ++ [e]) matchCase (filedUnder matchCase e.1) = some e.2 := by
  simp [entryAt]

theorem populated_iff_size {matchCase : Bool} {path : String} {e : Entry}
    (other : e.kind ≠ .directory) : Populated entries matchCase path e ↔ 0 < e.size := by
  rw [Populated, if_neg other]

theorem Populated.of_perm (same : listed.Perm entries) {matchCase : Bool} {path : String}
    {e : Entry} (filled : Populated listed matchCase path e) :
    Populated entries matchCase path e := by
  unfold Populated at filled ⊢
  simpa only [same.mem_iff] using filled

/-! ## What a test sees of the order -/

theorem Alike.admits {e e' : Entry} (alike : Alike globs e e') (same : listed.Perm entries)
    {n : Node} (admits : n.Admits globs listed e) : n.Admits globs entries e' := by
  refine ⟨?_, ?_, ?_, ?_⟩
  · rw [← alike.kind]
    exact admits.kind
  · rw [← alike.executable]
    exact admits.executable
  · rw [← alike.best]
    exact admits.mimetype
  · intro asked
    have filled := (admits.nonEmpty asked).of_perm same
    by_cases directory : e.kind = .directory
    · rw [Populated, if_pos directory] at filled
      rwa [Populated, if_pos (alike.kind ▸ directory)]
    · rw [populated_iff_size directory, alike.filled directory] at filled
      rwa [populated_iff_size (alike.kind ▸ directory)]

/-- Where entries that fall together are alike, a test holds in whichever order they are
listed. -/
theorem holds_of_perm (same : listed.Perm entries)
    (alike : ∀ matchCase, ∀ e ∈ entries, ∀ e' ∈ entries,
      filedUnder matchCase e.1 = filedUnder matchCase e'.1 → Alike globs e.2 e'.2)
    {n : Node} (held : n.holds globs (.ofList listed) = true) :
    n.holds globs (.ofList entries) = true := by
  obtain ⟨e, found, admits⟩ := Node.holds_iff_admits.1 held
  obtain ⟨q, mem, filed⟩ := exists_mem_of_entryAt found
  have mem := same.mem_iff.1 mem
  obtain ⟨e', found'⟩ := exists_entryAt_of_mem n.matchCase mem
  obtain ⟨q', mem', filed'⟩ := exists_mem_of_entryAt found'
  rw [filed] at found'
  exact Node.holds_iff_admits.2
    ⟨e', found', (alike n.matchCase _ mem _ mem' filed'.symm).admits same admits⟩

/-- Any entry can be listed last. If that makes no difference, the tests at its lowercased
path answer for it. -/
theorem admits_of_listed {e : String × Entry} (mem : e ∈ entries)
    (free : ∀ (n : Node) (listed : List (String × Entry)), listed.Perm entries →
      n.holds globs (.ofList listed) = n.holds globs (.ofList entries))
    {n : Node} (lowered : n.matchCase = false) (path : n.path = Text.lowercase e.1) :
    n.Admits globs entries e.2 ↔ n.holds globs (.ofList entries) = true := by
  have last : (entries.erase e ++ [e]).Perm entries :=
    (List.perm_append_singleton _ _).trans (List.perm_cons_erase mem).symm
  have stands : entryAt (entries.erase e ++ [e]) n.matchCase n.path = some e.2 := by
    rw [path, lowered]
    exact entryAt_concat e false
  rw [← free n _ last, Node.holds_iff_admits, stands]
  simp only [Option.some.injEq, exists_eq_left']
  exact ⟨(Alike.refl globs e.2).admits last.symm, (Alike.refl globs e.2).admits last⟩

/-- The kinds that tests can ask for tell all kinds of entries apart. -/
theorem kind_eq_of_accepts {kind kind' : EntryKind}
    (same : ∀ asked : ObjectKind, asked.accepts kind = true ↔ asked.accepts kind' = true) :
    kind = kind' := by
  have file := same .file
  have directory := same .directory
  have link := same .link
  cases kind <;> cases kind' <;> simp [ObjectKind.accepts] at file directory link ⊢

/-! ## Tests that ask for one thing -/

section Single

variable {path : String} {e e' : Entry}

theorem admits_kind_iff {asked : ObjectKind} :
    Node.Admits ⟨path, asked, false, false, false, none⟩ globs entries e ↔
      asked.accepts e.kind = true := by
  constructor
  · intro admits
    exact admits.kind
  · intro accepted
    exact ⟨accepted, nofun, rfl, nofun⟩

theorem admits_executable_iff :
    Node.Admits ⟨path, .any, false, true, false, none⟩ globs entries e ↔
      e.isExecutable = true := by
  constructor
  · intro admits
    exact admits.executable rfl
  · intro executable
    exact ⟨rfl, fun _ => executable, rfl, nofun⟩

theorem admits_mimetype_iff {asked : TypeId} :
    Node.Admits ⟨path, .any, false, false, false, some asked⟩ globs entries e ↔
      globs.best e.name = asked := by
  constructor
  · intro admits
    exact eq_of_beq admits.mimetype
  · rintro rfl
    exact ⟨rfl, nofun, beq_self_eq_true _, nofun⟩

theorem admits_nonEmpty_iff (other : e.kind ≠ .directory) :
    Node.Admits ⟨path, .any, false, false, true, none⟩ globs entries e ↔ 0 < e.size := by
  rw [← populated_iff_size other]
  constructor
  · intro admits
    exact admits.nonEmpty rfl
  · intro filled
    exact ⟨rfl, nofun, rfl, fun _ => filled⟩

/-- There are tests enough to tell entries apart that are not alike. -/
theorem alike_of_admits
    (same : ∀ n : Node, n.matchCase = false → n.path = path →
      (n.Admits globs entries e ↔ n.Admits globs entries e')) : Alike globs e e' := by
  have kind : e.kind = e'.kind := by
    apply kind_eq_of_accepts
    intro asked
    rw [← admits_kind_iff, ← admits_kind_iff]
    exact same _ rfl rfl
  refine ⟨kind, ?_, ?_, fun other => ?_⟩
  · rw [Bool.eq_iff_iff, ← admits_executable_iff, ← admits_executable_iff]
    exact same _ rfl rfl
  · symm
    rw [← admits_mimetype_iff, ← same _ rfl rfl, admits_mimetype_iff]
  · rw [← admits_nonEmpty_iff other, ← admits_nonEmpty_iff (kind ▸ other)]
    exact same _ rfl rfl

end Single

/-! ## What a table of rules sees of the order -/

theorem Table.classify?_congr {s s' : Snapshot}
    (same : ∀ n : Node, n.holds globs s = n.holds globs s') (t : Table) :
    t.classify? globs s = t.classify? globs s' := by
  have accepts : ∀ rule : Signature, rule.accepts globs s = rule.accepts globs s' := by
    intro rule
    rw [Signature.accepts, Signature.accepts, funext same]
  rw [Table.classify?, Table.classify?, funext accepts]

/-- The rule of a single test. -/
def Signature.ofNode (owner : TypeId) (n : Node) : Signature :=
  ⟨owner, Magic.defaultPriority, .ofForest [.node n []]⟩

theorem Signature.accepts_ofNode (owner : TypeId) (n : Node) (s : Snapshot) :
    (ofNode owner n).accepts globs s = n.holds globs s := by
  rw [Bool.eq_iff_iff, accepts, ofNode, Arena.someTree_ofForest]
  simp [Tree.every_node]

theorem Table.classify?_ofNode (owner : TypeId) (n : Node) (sentinels : Sentinels)
    (s : Snapshot) :
    (Table.ofList [.ofNode owner n] sentinels).classify? globs s =
      if n.holds globs s then some owner else none := by
  rw [Table.classify?, Table.ofList, List.mergeSort_singleton, List.find?_singleton,
    Signature.accepts_ofNode]
  split <;> rfl

/-- **What the order of a listing can do.** For a directory whose entries have different paths
the answers of all tables of rules are the same in whichever order it is listed, exactly if
entries are alike whose paths differ in case only. -/
theorem same_answers_iff_alike (globs : Glob.Index) (entries : List (String × Entry))
    (apart : (entries.map (·.1)).Nodup) :
    (∀ (t : Table) (listed : List (String × Entry)), listed.Perm entries →
      t.classify? globs (.ofList listed) = t.classify? globs (.ofList entries)) ↔
    ∀ e ∈ entries, ∀ e' ∈ entries, Text.lowercase e.1 = Text.lowercase e'.1 →
      Alike globs e.2 e'.2 := by
  constructor
  · intro free e mem e' mem' together
    have freeNode : ∀ (n : Node) (listed : List (String × Entry)), listed.Perm entries →
        n.holds globs (.ofList listed) = n.holds globs (.ofList entries) := by
      intro n listed same
      have answer := free (.ofList [.ofNode ⟨0⟩ n] ⟨⟨0⟩, ⟨0⟩, ⟨0⟩, ⟨0⟩, ⟨0⟩⟩) listed same
      rw [Table.classify?_ofNode, Table.classify?_ofNode] at answer
      revert answer
      cases n.holds globs (.ofList listed) <;> cases n.holds globs (.ofList entries) <;> simp
    apply alike_of_admits
    intro n lowered path
    rw [admits_of_listed mem freeNode lowered path,
      admits_of_listed mem' freeNode lowered (path.trans together)]
  · intro lowered t listed same
    have alike : ∀ matchCase, ∀ e ∈ entries, ∀ e' ∈ entries,
        filedUnder matchCase e.1 = filedUnder matchCase e'.1 → Alike globs e.2 e'.2 := by
      intro matchCase e mem e' mem' together
      cases matchCase with
      | false => exact lowered e mem e' mem' together
      | true =>
          obtain rfl := List.inj_on_of_nodup_map apart mem mem' together
          exact Alike.refl globs e.2
    apply Table.classify?_congr
    intro n
    rw [Bool.eq_iff_iff]
    constructor
    · exact holds_of_perm same alike
    · refine holds_of_perm same.symm fun matchCase e mem e' mem' => ?_
      exact alike matchCase e (same.mem_iff.1 mem) e' (same.mem_iff.1 mem')

theorem best_ofList_nil (unknown : TypeId) (name : String) :
    (Glob.Index.ofList [] unknown).best name = unknown := by
  rw [Glob.Index.best, Glob.candidates_of_accepted_nil unknown rfl]

/-- Two folders whose names differ in case, with something in one of them. -/
def twinFolders : List (String × Entry) :=
  [("Photos", { name := "Photos", kind := .directory, mode := 0x1ED }),
    ("photos", { name := "photos", kind := .directory, mode := 0x1C0 }),
    ("photos/cat.png", { name := "cat.png", size := 512, mode := 0x1A4 })]

/-- As long as no name rule tells their names apart, the folders are alike. -/
theorem twinFolders_alike :
    (twinFolders.map (·.1)).Nodup ∧
      ∀ (t : Table) (listed : List (String × Entry)), listed.Perm twinFolders →
        t.classify? (.ofList [] ⟨0⟩) (.ofList listed) =
          t.classify? (.ofList [] ⟨0⟩) (.ofList twinFolders) := by
  have apart : (twinFolders.map (·.1)).Nodup := by decide
  have pairs : ∀ e ∈ twinFolders, ∀ e' ∈ twinFolders,
      Text.lowercase e.1 = Text.lowercase e'.1 →
        e.2.kind = e'.2.kind ∧ e.2.isExecutable = e'.2.isExecutable ∧
          (0 < e.2.size ↔ 0 < e'.2.size) := by
    decide +kernel
  refine ⟨apart, (same_answers_iff_alike _ twinFolders apart).2 ?_⟩
  intro e mem e' mem' together
  obtain ⟨kind, executable, filled⟩ := pairs e mem e' mem' together
  refine ⟨kind, executable, ?_, fun _ => filled⟩
  rw [best_ofList_nil, best_ofList_nil]

/-- A directory is a disc with films if it has a folder of a certain name. -/
def filmFolderRule : LayoutRule := { tests := [{ path := "VIDEO_TS", kind := some "directory" }] }

/-- What the rule is compiled to. -/
def filmFolder : Node := ⟨"video_ts", .directory, false, false, false, none⟩

def filmTable : Table := .ofList [.ofNode ⟨10⟩ filmFolder] ⟨⟨0⟩, ⟨1⟩, ⟨2⟩, ⟨3⟩, ⟨4⟩⟩

/-- A folder and a file whose names differ in case. -/
def folderAndFile : List (String × Entry) :=
  [("VIDEO_TS", { name := "VIDEO_TS", kind := .directory, mode := 0x1ED }),
    ("video_ts", { name := "video_ts", size := 5, mode := 0x1A4 })]

/-- The folder is overlooked if the file is listed behind it. -/
theorem folder_overlooked :
    (Signature.compile "x-content/video-dvd" ⟨10⟩ filmFolderRule fun _ => none).toOption =
        some (.ofNode ⟨10⟩ filmFolder) ∧
      (folderAndFile.map (·.1)).Nodup ∧ folderAndFile.reverse.Perm folderAndFile ∧
      filmTable.classify? (.ofList [] ⟨0⟩) (.ofList folderAndFile.reverse) = some ⟨10⟩ ∧
      filmTable.classify? (.ofList [] ⟨0⟩) (.ofList folderAndFile) = none := by
  have folder : entryAt folderAndFile.reverse false "video_ts" =
      some { name := "VIDEO_TS", kind := .directory, mode := 0x1ED } := by decide +kernel
  have file : entryAt folderAndFile false "video_ts" =
      some { name := "video_ts", size := 5, mode := 0x1A4 } := by decide +kernel
  refine ⟨by decide +kernel, by decide, List.reverse_perm _, ?_, ?_⟩
  · rw [filmTable, Table.classify?_ofNode, if_pos]
    exact Node.holds_iff_admits.2 ⟨_, folder, admits_kind_iff.2 rfl⟩
  · rw [filmTable, Table.classify?_ofNode, if_neg]
    intro held
    obtain ⟨e, found, admits⟩ := Node.holds_iff_admits.1 held
    obtain rfl := Option.some.inj (file.symm.trans found)
    exact absurd (admits_kind_iff.1 admits) nofun

end MediaSniff.Layout
