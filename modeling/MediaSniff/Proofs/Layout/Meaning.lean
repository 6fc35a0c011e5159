/-
# MediaSniff.Proofs.Layout.Meaning — what a directory rule asks of a directory

A directory rule is written as a forest of tests. `Meets` is what one of them asks by itself,
said of the list of entries of a directory, and `Holds` adds all that is below it. A compiled
rule accepts a directory exactly if one of its first tests holds (`accepts_iff_holds`).

Between the two stand the texts of a test, which compiling reads (`holds_iff_meets`), the two
tables of a snapshot, and the arena. Compiling takes a level before what is below it, so the
trees that it makes are compared with the tests level by level: each is related to its test by
`Answers`, and the recursion of `compileBelow_answers` is that of compiling.
-/
import MediaSniff.Proofs.Arena.Layout
import MediaSniff.Proofs.Glob.Lookup
import MediaSniff.Proofs.Layout.Compile
import MediaSniff.Proofs.Layout.Snapshot

set_option autoImplicit false

namespace MediaSniff.Layout

open Descriptor (LayoutTest LayoutRule)

/-! ## The meaning of a directory rule -/

/-- A path without the slashes at its ends. -/
def Trimmed (path inner : String) : Prop :=
  (∃ m n, path.toList = List.replicate m '/' ++ inner.toList ++ List.replicate n '/') ∧
    inner.toList.head? ≠ some '/' ∧ inner.toList.getLast? ≠ some '/'

/-- The kind of an entry is what a text asks for. -/
inductive AsksFor : Option String → EntryKind → Prop
  | unwritten (kind : EntryKind) : AsksFor none kind
  | empty (kind : EntryKind) : AsksFor (some "") kind
  | file : AsksFor (some "file") .file
  | directory : AsksFor (some "directory") .directory
  | link : AsksFor (some "link") .symlink

/-- There is something in an entry: in a directory, anything filed below its path, and in
anything else at least one byte. -/
def Populated (entries : List (String × Entry)) (matchCase : Bool) (path : String)
    (e : Entry) : Prop :=
  if e.kind = .directory then ∃ e' ∈ entries, LiesBelow (filedUnder matchCase e'.1) path
  else 0 < e.size

section Rule

variable (resolve : String → Option TypeId) (globs : Glob.Index) (entries : List (String × Entry))

/-- A directory meets a test, whatever is below the test. -/
def Meets (test : LayoutTest) : Prop :=
  ∃ path e, Trimmed test.path path ∧
    entryAt entries test.matchCase (filedUnder test.matchCase path) = some e ∧
    AsksFor test.kind e.kind ∧
    (test.executable = true → e.isExecutable = true) ∧
    (∀ name, test.mimetype = some name → name ≠ "" → resolve name = some (globs.best e.name)) ∧
    (test.nonEmpty = true →
      Populated entries test.matchCase (filedUnder test.matchCase path) e)

/-- A directory meets a test and all that are below it. -/
inductive Holds : LayoutTest → Prop
  | intro {test : LayoutTest} (here : Meets resolve globs entries test)
      (below : ∀ child ∈ test.children, Holds child) : Holds test

end Rule

variable {type : String} {resolve : String → Option TypeId} {globs : Glob.Index}
  {entries : List (String × Entry)}

theorem holds_iff {test : LayoutTest} :
    Holds resolve globs entries test ↔
      Meets resolve globs entries test ∧ ∀ child ∈ test.children, Holds resolve globs entries child := by
  constructor
  · rintro ⟨here, below⟩
    exact ⟨here, below⟩
  · rintro ⟨here, below⟩
    exact .intro here below

/-! ## One test -/

theorem dropWhile_replicate_append {l : List Char} (begun : l.head? ≠ some '/') (m : Nat) :
    (List.replicate m '/' ++ l).dropWhile (· = '/') = l := by
  rw [List.dropWhile_append_of_pos (by simp)]
  cases l with
  | nil => rfl
  | cons c l =>
      have other : c ≠ '/' := by simpa using begun
      simp [other]

theorem exists_replicate_append_dropWhile (l : List Char) :
    (∃ m, l = List.replicate m '/' ++ l.dropWhile (· = '/')) ∧
      (l.dropWhile (· = '/')).head? ≠ some '/' := by
  induction l with
  | nil => exact ⟨⟨0, rfl⟩, by simp⟩
  | cons c l ih =>
      by_cases slash : c = '/'
      · obtain ⟨⟨m, whole⟩, begun⟩ := ih
        subst slash
        simp only [List.dropWhile_cons, decide_true, if_true]
        exact ⟨⟨m + 1, congrArg ('/' :: ·) whole⟩, begun⟩
      · simp only [List.dropWhile_cons, slash, decide_false, Bool.false_eq_true, if_false]
        exact ⟨⟨0, rfl⟩, by simpa using slash⟩

/-- Trimming a path takes the slashes at its ends away and nothing else. -/
theorem trimmed_iff {path inner : String} : Trimmed path inner ↔ trimSlashes path = inner := by
  constructor
  · rintro ⟨⟨m, n, whole⟩, begun, ended⟩
    rw [← String.toList_inj, trimSlashes]
    simp only [String.toList_ofList]
    by_cases nothing : inner.toList = []
    · have slashes : path.toList = List.replicate (m + n) '/' ++ [] := by
        rw [whole, nothing, List.append_nil, List.append_nil, List.replicate_append_replicate]
      rw [slashes, dropWhile_replicate_append (by simp), nothing]
      rfl
    · have front : path.toList.dropWhile (· = '/') = inner.toList ++ List.replicate n '/' := by
        rw [whole, List.append_assoc]
        apply dropWhile_replicate_append
        rwa [List.head?_append_of_ne_nil _ nothing]
      rw [front, List.reverse_append, List.reverse_replicate, dropWhile_replicate_append,
        List.reverse_reverse]
      rwa [List.head?_reverse]
  · rintro rfl
    obtain ⟨⟨m, front⟩, begun⟩ := exists_replicate_append_dropWhile path.toList
    obtain ⟨⟨n, back⟩, ended⟩ :=
      exists_replicate_append_dropWhile (path.toList.dropWhile (· = '/')).reverse
    have inner : (trimSlashes path).toList =
        ((path.toList.dropWhile (· = '/')).reverse.dropWhile (· = '/')).reverse := by
      simp [trimSlashes]
    have shorter : path.toList.dropWhile (· = '/') =
        (trimSlashes path).toList ++ List.replicate n '/' := by
      rw [inner, ← List.reverse_inj, List.reverse_append, List.reverse_reverse,
        List.reverse_replicate]
      exact back
    refine ⟨⟨m, n, ?_⟩, ?_, ?_⟩
    · rw [List.append_assoc, ← shorter]
      exact front
    · intro slash
      have nonempty : (trimSlashes path).toList ≠ [] := by
        intro nothing
        rw [nothing] at slash
        cases slash
      rw [shorter, List.head?_append_of_ne_nil _ nonempty] at begun
      exact begun slash
    · rw [inner, List.getLast?_reverse]
      exact ended

theorem asksFor_iff {text : Option String} {kind : EntryKind} :
    AsksFor text kind ↔
      ∃ asked, ObjectKind.ofName? (text.getD "") = some asked ∧ asked.accepts kind = true := by
  constructor
  · rintro (_ | _ | _ | _ | _)
    · exact ⟨.any, rfl, rfl⟩
    · exact ⟨.any, rfl, rfl⟩
    · exact ⟨.file, rfl, rfl⟩
    · exact ⟨.directory, rfl, rfl⟩
    · exact ⟨.link, rfl, rfl⟩
  · rintro ⟨asked, named, accepted⟩
    cases text with
    | none => exact .unwritten kind
    | some name =>
        simp only [Option.getD_some, ObjectKind.ofName?] at named
        split at named <;> cases named
        · exact .empty kind
        · obtain rfl : kind = .file := by simpa [ObjectKind.accepts] using accepted
          exact .file
        · obtain rfl : kind = .directory := by simpa [ObjectKind.accepts] using accepted
          exact .directory
        · obtain rfl : kind = .symlink := by simpa [ObjectKind.accepts] using accepted
          exact .link

/-- The type that a name has is the one that a test asks for. -/
theorem all_reference_iff {test : LayoutTest} {best : TypeId}
    (known : ∀ name ∈ test.reference?, (resolve name).isSome) :
    (test.reference?.bind resolve).all (fun asked => best == asked) = true ↔
      ∀ name, test.mimetype = some name → name ≠ "" → resolve name = some best := by
  have reference : ∀ name, test.reference? = some name ↔ test.mimetype = some name ∧ name ≠ "" := by
    intro name
    simp [LayoutTest.reference?, Option.filter_eq_some_iff]
  simp only [← and_imp, ← reference]
  cases asked : test.reference? with
  | none => simp
  | some name =>
      obtain ⟨id, resolved⟩ := Option.isSome_iff_exists.1 (known name asked)
      simp only [Option.bind_some, resolved, Option.all_some, beq_iff_eq, Option.some.injEq,
        forall_eq']
      exact eq_comm

theorem populated_iff {n : Node} {e : Entry} :
    populated (.ofList entries) n e = true ↔ Populated entries n.matchCase n.path e := by
  rw [populated, Populated]
  split
  · exact hasBelow_ofList entries n.path n.matchCase
  · exact decide_eq_true_iff

/-- What a compiled test asks of the entry at its path. -/
structure Node.Admits (n : Node) (globs : Glob.Index) (entries : List (String × Entry))
    (e : Entry) : Prop where
  kind : n.kind.accepts e.kind = true
  executable : n.executable = true → e.isExecutable = true
  mimetype : n.mimetype.all (fun asked => globs.best e.name == asked) = true
  nonEmpty : n.nonEmpty = true → Populated entries n.matchCase n.path e

theorem Node.holds_iff_admits {n : Node} :
    n.holds globs (.ofList entries) = true ↔
      ∃ e, entryAt entries n.matchCase n.path = some e ∧ n.Admits globs entries e := by
  rw [Node.holds, find?_ofList]
  cases entryAt entries n.matchCase n.path with
  | none => simp
  | some e =>
      simp only [Option.some.injEq, exists_eq_left', Bool.and_eq_true, Bool.or_eq_true,
        Bool.not_eq_true', populated_iff, and_assoc, ← Bool.not_eq_true, ← imp_iff_not_or]
      constructor
      · rintro ⟨kind, executable, mimetype, nonEmpty⟩
        exact ⟨kind, executable, mimetype, nonEmpty⟩
      · rintro ⟨kind, executable, mimetype, nonEmpty⟩
        exact ⟨kind, executable, mimetype, nonEmpty⟩

/-- **A compiled test asks for what is written.** -/
theorem holds_iff_meets {test : LayoutTest} {n : Node}
    (compiled : compileNode type resolve test = .ok n) :
    n.holds globs (.ofList entries) = true ↔ Meets resolve globs entries test := by
  obtain ⟨-, known, kind, named, rfl⟩ := compileNode_eq_ok.1 compiled
  rw [Node.holds_iff_admits]
  constructor
  · rintro ⟨e, found, accepted, executable, asked, filled⟩
    exact ⟨trimSlashes test.path, e, trimmed_iff.2 rfl, found, asksFor_iff.2 ⟨kind, named, accepted⟩,
      executable, (all_reference_iff known).1 asked, filled⟩
  · rintro ⟨path, e, trimmed, found, asksFor, executable, asked, filled⟩
    obtain rfl := trimmed_iff.1 trimmed
    obtain ⟨kind', named', accepted⟩ := asksFor_iff.1 asksFor
    obtain rfl := Option.some.inj (named.symm.trans named')
    exact ⟨e, found, accepted, executable, (all_reference_iff known).2 asked, filled⟩

/-! ## What is below a test -/

/-- A tree of compiled tests holds in a directory exactly if a written test does. -/
def Answers (resolve : String → Option TypeId) (globs : Glob.Index)
    (entries : List (String × Entry)) (test : LayoutTest) (t : Tree Node) : Prop :=
  (t.Every fun n => n.holds globs (.ofList entries) = true) ↔ Holds resolve globs entries test

theorem forall_iff_of_answers {tests : List LayoutTest} {trees : List (Tree Node)}
    (each : List.Forall₂ (Answers resolve globs entries) tests trees) :
    (∀ t ∈ trees, t.Every fun n => n.holds globs (.ofList entries) = true) ↔
      ∀ test ∈ tests, Holds resolve globs entries test := by
  induction each with
  | nil => simp
  | cons first _ ih =>
      rw [List.forall_mem_cons, List.forall_mem_cons]
      exact and_congr first ih

theorem exists_iff_of_answers {tests : List LayoutTest} {trees : List (Tree Node)}
    (each : List.Forall₂ (Answers resolve globs entries) tests trees) :
    (∃ t ∈ trees, t.Every fun n => n.holds globs (.ofList entries) = true) ↔
      ∃ test ∈ tests, Holds resolve globs entries test := by
  induction each with
  | nil => simp
  | cons first _ ih =>
      rw [List.exists_mem_cons_iff, List.exists_mem_cons_iff]
      exact or_congr first ih

/-- Labels and what is below them, put together. -/
theorem answers_zipWith {tests : List LayoutTest} {nodes : List Node}
    {below : List (List (Tree Node))}
    (labels : List.Forall₂ (fun test n => compileNode type resolve test = .ok n) tests nodes)
    (trees : List.Forall₂ (fun test ts =>
      List.Forall₂ (Answers resolve globs entries) test.children ts) tests below) :
    List.Forall₂ (Answers resolve globs entries) tests (List.zipWith .node nodes below) := by
  induction labels generalizing below with
  | nil => exact .nil
  | cons label _ ih =>
      cases trees with
      | cons each trees =>
          refine .cons ?_ (ih trees)
          rw [Answers, Tree.every_node, holds_iff_meets label, forall_iff_of_answers each, holds_iff]

mutual

theorem compileBelow_answers : ∀ (test : LayoutTest) (trees : List (Tree Node)),
    compileBelow type resolve test = .ok trees →
      List.Forall₂ (Answers resolve globs entries) test.children trees
  | ⟨_, _, _, _, _, _, children⟩, trees, done => by
      rw [compileBelow] at done
      obtain ⟨nodes, labels, done⟩ := Outcome.bind_eq_ok.1 done
      obtain ⟨below, each, done⟩ := Outcome.bind_eq_ok.1 done
      cases done
      exact answers_zipWith (Outcome.mapM_eq_ok.1 labels)
        (compileEachBelow_answers children below each)

theorem compileEachBelow_answers : ∀ (tests : List LayoutTest)
    (below : List (List (Tree Node))), compileEachBelow type resolve tests = .ok below →
      List.Forall₂ (fun test ts =>
        List.Forall₂ (Answers resolve globs entries) test.children ts) tests below
  | [], below, done => by
      cases done
      exact .nil
  | test :: tests, below, done => by
      rw [compileEachBelow] at done
      obtain ⟨trees, first, done⟩ := Outcome.bind_eq_ok.1 done
      obtain ⟨others, rest, done⟩ := Outcome.bind_eq_ok.1 done
      cases done
      exact .cons (compileBelow_answers test trees first)
        (compileEachBelow_answers tests others rest)

end

/-! ## Directory rules -/

/-- **A directory rule asks for what is written.** A compiled rule accepts a directory exactly
if one of its first tests holds there with all that is below it. The walk that answers finds a
cell wherever it comes to. -/
theorem Signature.accepts_iff_holds {owner : TypeId} {rule : LayoutRule} {s : Signature}
    (compiled : Signature.compile type owner rule resolve = .ok s) (globs : Glob.Index)
    (entries : List (String × Entry)) :
    (s.accepts globs (.ofList entries) = true ↔
      ∃ test ∈ rule.tests, Holds resolve globs entries test) ∧
    ∀ i, s.arena.Reached i → i < s.arena.size := by
  obtain ⟨-, trees, done, rfl⟩ := Signature.compile_eq_ok.1 compiled
  -- A forest is what is below a test, whichever that is.
  have each : List.Forall₂ (Answers resolve globs entries) rule.tests trees :=
    compileBelow_answers ⟨"", none, false, false, false, none, rule.tests⟩ trees done
  refine ⟨?_, fun i reached => Arena.reached_lt_size reached⟩
  rw [Signature.accepts, Arena.someTree_ofForest]
  exact exists_iff_of_answers each

/-- A disc with films: a directory that is not empty, in which the index is of its own type,
and beside it a program that can be started. -/
def filmRule : LayoutRule :=
  { tests := [{ path := "/VIDEO_TS/", kind := some "directory", nonEmpty := true
                children := [
                  { path := "video_ts/video_ts.ifo", kind := some "file", nonEmpty := true
                    mimetype := some "video/x-ifo" },
                  { path := "Setup", matchCase := true, executable := true }] }] }

/-- The names of indexes. -/
def indexNames : List Glob := [⟨.trailing (Text.utf8 ".ifo"), false, 50, ⟨7⟩⟩]

def filmTypes (name : String) : Option TypeId := if name = "video/x-ifo" then some ⟨7⟩ else none

/-- What such a disc holds. The program has the mode that is given. -/
def filmDisc (mode : Nat) : List (String × Entry) :=
  [("Video_TS", { name := "Video_TS", kind := .directory }),
    ("Video_TS/VIDEO_TS.IFO", { name := "VIDEO_TS.IFO", size := 12 }),
    ("Setup", { name := "Setup", size := 0, mode })]

theorem indexNames_best : (Glob.Index.ofList indexNames ⟨0⟩).best "VIDEO_TS.IFO" = ⟨7⟩ := by
  have accepted : indexNames.filter (·.acceptsName "VIDEO_TS.IFO") = indexNames := by
    decide +kernel
  have one := Glob.candidates_perm (⟨0⟩ : TypeId)
    (show indexNames.filter (·.acceptsName "VIDEO_TS.IFO") ≠ [] by
      rw [accepted]
      exact List.cons_ne_nil _ _)
  rw [accepted] at one
  rw [Glob.Index.best, List.perm_singleton.1 one]
  rfl

theorem filmDisc_holds :
    ∃ test ∈ filmRule.tests,
      Holds filmTypes (.ofList indexNames ⟨0⟩) (filmDisc 0x1ED) test := by
  refine ⟨_, List.mem_singleton.2 rfl, .intro ?_ ?_⟩
  · refine ⟨"VIDEO_TS", { name := "Video_TS", kind := .directory },
      trimmed_iff.2 (by decide +kernel), by decide +kernel, .directory, nofun, nofun, ?_⟩
    intro _
    exact ⟨_, List.mem_cons_of_mem _ List.mem_cons_self, "video_ts.ifo".toList,
      by decide +kernel⟩
  · intro child mem
    simp only [List.mem_cons, List.not_mem_nil, or_false] at mem
    rcases mem with rfl | rfl
    · refine .intro ⟨"video_ts/video_ts.ifo", { name := "VIDEO_TS.IFO", size := 12 },
        trimmed_iff.2 (by decide +kernel), by decide +kernel, .file, nofun, ?_, ?_⟩ nofun
      · rintro _ ⟨⟩ -
        rw [indexNames_best]
        rfl
      · intro _
        rw [Populated, if_neg nofun]
        decide
    · exact .intro ⟨"Setup", { name := "Setup", size := 0, mode := 0x1ED },
        trimmed_iff.2 (by decide +kernel), by decide +kernel, .unwritten _,
        fun _ => by decide, nofun, nofun⟩ nofun

theorem filmDisc_not_holds :
    ¬ ∃ test ∈ filmRule.tests,
      Holds filmTypes (.ofList indexNames ⟨0⟩) (filmDisc 0x1A4) test := by
  rintro ⟨test, mem, held⟩
  obtain rfl := List.mem_singleton.1 mem
  have program := (holds_iff.1 held).2 _ (List.mem_cons_of_mem _ List.mem_cons_self)
  obtain ⟨path, e, trimmed, found, -, started, -⟩ := (holds_iff.1 program).1
  obtain rfl := trimmed_iff.1 trimmed
  have stands : entryAt (filmDisc 0x1A4) true (filedUnder true (trimSlashes "Setup")) =
      some { name := "Setup", size := 0, mode := 0x1A4 } := by decide +kernel
  obtain rfl := Option.some.inj (stands.symm.trans found)
  exact absurd (started rfl) (by decide)

/-- A disc is one with films if its program may be started, and not otherwise. -/
theorem filmRule_accepts :
    ∃ s, Signature.compile "x-content/video-dvd" ⟨3⟩ filmRule filmTypes = .ok s ∧
      s.accepts (.ofList indexNames ⟨0⟩) (.ofList (filmDisc 0x1ED)) = true ∧
      s.accepts (.ofList indexNames ⟨0⟩) (.ofList (filmDisc 0x1A4)) = false := by
  have compiles : (Signature.compile "x-content/video-dvd" ⟨3⟩ filmRule filmTypes).isOk = true := by
    decide +kernel
  cases compiled : Signature.compile "x-content/video-dvd" ⟨3⟩ filmRule filmTypes with
  | error cause =>
      rw [compiled] at compiles
      cases compiles
  | ok s =>
      refine ⟨s, rfl, (Signature.accepts_iff_holds compiled _ _).1.2 filmDisc_holds, ?_⟩
      rw [← Bool.not_eq_true, (Signature.accepts_iff_holds compiled _ _).1]
      exact filmDisc_not_holds

end MediaSniff.Layout
