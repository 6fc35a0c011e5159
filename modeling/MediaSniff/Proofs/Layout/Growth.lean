/-
# MediaSniff.Proofs.Layout.Growth — directories that grow

An entry that is added to a directory takes nothing away, as long as it is not filed under a
path that is there already, not even in another case: what stands at a path still stands there
(`entryAt_append_of_apart`), and what has something below it still has. No test asks that
something be absent, so a test that holds goes on to hold (`holds_append_of_apart`), and a rule
that accepts goes on to accept.

The answer may change all the same, but only to that of a rule which is tried no later than the
one that decided before (`decides_append_of_apart`).
-/
import MediaSniff.Proofs.Layout.Listing

set_option autoImplicit false

namespace MediaSniff.Layout

variable {globs : Glob.Index} {entries more : List (String × Entry)}

/-- No entry of one list falls together with one of another, even if case is ignored. -/
def Apart (entries more : List (String × Entry)) : Prop :=
  ∀ e ∈ entries, ∀ e' ∈ more, Text.lowercase e.1 ≠ Text.lowercase e'.1

/-! ## What stays -/

/-- Entries that differ in their lowercased paths differ in their paths. -/
theorem Apart.filedUnder_ne (apart : Apart entries more) (matchCase : Bool)
    {e e' : String × Entry} (mem : e ∈ entries) (mem' : e' ∈ more) :
    filedUnder matchCase e'.1 ≠ filedUnder matchCase e.1 := by
  intro together
  refine apart e mem e' mem' ?_
  cases matchCase with
  | false => exact together.symm
  | true => exact congrArg Text.lowercase together.symm

theorem entryAt_append_of_apart (apart : Apart entries more) {matchCase : Bool} {path : String}
    {e : Entry} (found : entryAt entries matchCase path = some e) :
    entryAt (entries ++ more) matchCase path = some e := by
  obtain ⟨q, mem, rfl⟩ := exists_mem_of_entryAt found
  have nowhere : more.reverse.find? (fun e' => filedUnder matchCase e'.1 == filedUnder matchCase q) =
      none := by
    rw [List.find?_eq_none]
    intro e' mem' together
    exact apart.filedUnder_ne matchCase mem (List.mem_reverse.1 mem') (eq_of_beq together)
  rw [entryAt, List.reverse_append, List.find?_append, nowhere, Option.none_or]
  exact found

theorem Populated.append {matchCase : Bool} {path : String} {e : Entry}
    (filled : Populated entries matchCase path e) (more : List (String × Entry)) :
    Populated (entries ++ more) matchCase path e := by
  by_cases directory : e.kind = .directory
  · rw [Populated, if_pos directory] at filled ⊢
    obtain ⟨e', mem, below⟩ := filled
    exact ⟨e', List.mem_append_left more mem, below⟩
  · rw [populated_iff_size directory] at filled ⊢
    exact filled

theorem Node.Admits.append {n : Node} {e : Entry} (admits : n.Admits globs entries e)
    (more : List (String × Entry)) : n.Admits globs (entries ++ more) e :=
  ⟨admits.kind, admits.executable, admits.mimetype, fun asked => (admits.nonEmpty asked).append more⟩

/-- **A test that holds goes on to hold.** -/
theorem holds_append_of_apart (apart : Apart entries more) {n : Node}
    (held : n.holds globs (.ofList entries) = true) :
    n.holds globs (.ofList (entries ++ more)) = true := by
  obtain ⟨e, found, admits⟩ := Node.holds_iff_admits.1 held
  exact Node.holds_iff_admits.2 ⟨e, entryAt_append_of_apart apart found, admits.append more⟩

theorem Signature.accepts_append_of_apart (apart : Apart entries more) {s : Signature}
    (accepts : s.accepts globs (.ofList entries) = true) :
    s.accepts globs (.ofList (entries ++ more)) = true :=
  Arena.someTree_mono (fun _ => holds_append_of_apart apart) accepts

/-! ## Which rule decides -/

/-- The rule at a place decides on a directory: it accepts it, and no rule in front does. -/
structure Table.DecidedAt (t : Table) (globs : Glob.Index) (snapshot : Snapshot) (place : Nat)
    (s : Signature) : Prop where
  here : t.signatures[place]? = some s
  accepts : s.accepts globs snapshot = true
  first : ∀ earlier < place, ∀ s', t.signatures[earlier]? = some s' →
    s'.accepts globs snapshot = false

variable {t : Table} {snapshot : Snapshot}

/-- The answer is that of the rule that decides. -/
theorem Table.classify?_eq_some_iff {id : TypeId} :
    t.classify? globs snapshot = some id ↔
      ∃ place s, t.DecidedAt globs snapshot place s ∧ s.owner = id := by
  rw [classify?, Option.map_eq_some_iff]
  simp only [List.find?_eq_some_iff_getElem]
  constructor
  · rintro ⟨s, ⟨accepts, place, inside, here, first⟩, owner⟩
    refine ⟨place, s, ⟨List.getElem?_eq_some_iff.2 ⟨inside, here⟩, accepts, ?_⟩, owner⟩
    intro earlier less s' there
    obtain ⟨inside', rfl⟩ := List.getElem?_eq_some_iff.1 there
    simpa using first earlier less
  · rintro ⟨place, s, decided, owner⟩
    obtain ⟨inside, here⟩ := List.getElem?_eq_some_iff.1 decided.here
    refine ⟨s, ⟨decided.accepts, place, inside, here, fun earlier less => ?_⟩, owner⟩
    simpa using decided.first earlier less _ (List.getElem?_eq_getElem (less.trans inside))

/-- Some rule decides that stands no later than one that accepts. -/
theorem Table.exists_decidedAt_le {place : Nat} {s : Signature}
    (here : t.signatures[place]? = some s) (accepts : s.accepts globs snapshot = true) :
    ∃ place' ≤ place, ∃ s', t.DecidedAt globs snapshot place' s' := by
  induction place using Nat.strong_induction_on generalizing s with
  | _ place ih =>
      by_cases earlier : ∃ place' < place, ∃ s', t.signatures[place']? = some s' ∧
          s'.accepts globs snapshot = true
      · obtain ⟨place', less, s', there, accepts'⟩ := earlier
        obtain ⟨place'', le, decided⟩ := ih place' less there accepts'
        exact ⟨place'', le.trans less.le, decided⟩
      · refine ⟨place, le_rfl, s, here, accepts, fun place' less s' there => ?_⟩
        rw [← Bool.not_eq_true]
        exact fun accepts' => earlier ⟨place', less, s', there, accepts'⟩

/-- **Growth takes no rule away.** Let entries be added to a directory that do not fall together
with any that are there, even if case is ignored. Each rule that accepted still accepts; and if
a table had an answer, then it has that of a rule which stands at the same place as the one that
decided before, or earlier. -/
theorem decides_append_of_apart (globs : Glob.Index) (entries more : List (String × Entry))
    (apart : Apart entries more) :
    (∀ s : Signature, s.accepts globs (.ofList entries) = true →
      s.accepts globs (.ofList (entries ++ more)) = true) ∧
    ∀ (t : Table) (id : TypeId), t.classify? globs (.ofList entries) = some id →
      ∃ place s, t.DecidedAt globs (.ofList entries) place s ∧ s.owner = id ∧
        ∃ place' ≤ place, ∃ s', t.DecidedAt globs (.ofList (entries ++ more)) place' s' ∧
          t.classify? globs (.ofList (entries ++ more)) = some s'.owner := by
  refine ⟨fun s => Signature.accepts_append_of_apart apart, fun t id answer => ?_⟩
  obtain ⟨place, s, decided, owner⟩ := Table.classify?_eq_some_iff.1 answer
  obtain ⟨place', le, s', decided'⟩ := Table.exists_decidedAt_le decided.here
    (Signature.accepts_append_of_apart apart decided.accepts)
  exact ⟨place, s, decided, owner, place', le, s', decided',
    Table.classify?_eq_some_iff.2 ⟨place', s', decided', rfl⟩⟩

/-- A file by which a program starts of itself. -/
def startFile : Node := ⟨"autorun.inf", .file, false, false, false, none⟩

/-- A rule on that file is tried before the one on the folder of a disc with films. -/
def startTable : Table :=
  ⟨[.ofNode ⟨12⟩ startFile, .ofNode ⟨10⟩ filmFolder], ⟨⟨0⟩, ⟨1⟩, ⟨2⟩, ⟨3⟩, ⟨4⟩⟩⟩

def bareDisc : List (String × Entry) := [("VIDEO_TS", { name := "VIDEO_TS", kind := .directory })]

def addedFiles : List (String × Entry) :=
  [("Autorun.inf", { name := "Autorun.inf", size := 7 }),
    ("VIDEO_TS/index.ifo", { name := "index.ifo", size := 12 })]

theorem startTable_classify (globs : Glob.Index) (s : Snapshot) :
    startTable.classify? globs s =
      if startFile.holds globs s then some ⟨12⟩
      else if filmFolder.holds globs s then some ⟨10⟩ else none := by
  simp only [Table.classify?, startTable, List.find?_cons, Signature.accepts_ofNode]
  cases startFile.holds globs s <;> cases filmFolder.holds globs s <;> rfl

theorem bareDisc_holds :
    filmFolder.holds (.ofList [] ⟨0⟩) (.ofList bareDisc) = true ∧
      startFile.holds (.ofList [] ⟨0⟩) (.ofList bareDisc) = false ∧
      startFile.holds (.ofList [] ⟨0⟩) (.ofList (bareDisc ++ addedFiles)) = true := by
  have folder : entryAt bareDisc false "video_ts" =
      some { name := "VIDEO_TS", kind := .directory } := by decide +kernel
  have nothing : entryAt bareDisc false "autorun.inf" = none := by decide +kernel
  have file : entryAt (bareDisc ++ addedFiles) false "autorun.inf" =
      some { name := "Autorun.inf", size := 7 } := by decide +kernel
  refine ⟨Node.holds_iff_admits.2 ⟨_, folder, admits_kind_iff.2 rfl⟩, ?_,
    Node.holds_iff_admits.2 ⟨_, file, admits_kind_iff.2 rfl⟩⟩
  rw [← Bool.not_eq_true, Node.holds_iff_admits]
  rintro ⟨e, found, -⟩
  cases nothing.symm.trans found

/-- With the file the other rule decides, which stands in front. -/
theorem bareDisc_grows :
    Apart bareDisc addedFiles ∧
      (Signature.ofNode ⟨10⟩ filmFolder).accepts (.ofList [] ⟨0⟩)
        (.ofList (bareDisc ++ addedFiles)) = true ∧
      startTable.classify? (.ofList [] ⟨0⟩) (.ofList bareDisc) = some ⟨10⟩ ∧
      ∃ place ≤ 1, ∃ s, startTable.DecidedAt (.ofList [] ⟨0⟩) (.ofList (bareDisc ++ addedFiles))
        place s ∧ s.owner = ⟨12⟩ := by
  have apart : Apart bareDisc addedFiles := by
    unfold Apart
    decide +kernel
  obtain ⟨films, noStart, start⟩ := bareDisc_holds
  obtain ⟨accepts, answers⟩ := decides_append_of_apart (.ofList [] ⟨0⟩) bareDisc addedFiles apart
  have before : startTable.classify? (.ofList [] ⟨0⟩) (.ofList bareDisc) = some ⟨10⟩ := by
    simp [startTable_classify, noStart, films]
  refine ⟨apart, accepts _ ((Signature.accepts_ofNode _ _ _).trans films), before, ?_⟩
  obtain ⟨place, s, decided, -, place', le, s', decided', answer⟩ := answers startTable ⟨10⟩ before
  have inside : place < 2 := (List.getElem?_eq_some_iff.1 decided.here).1
  refine ⟨place', by omega, s', decided', ?_⟩
  rw [startTable_classify, if_pos start] at answer
  exact (Option.some.inj answer).symm

end MediaSniff.Layout
