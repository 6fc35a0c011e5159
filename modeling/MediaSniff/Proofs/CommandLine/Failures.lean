/-
# MediaSniff.Proofs.CommandLine.Failures — which failures a command tells

A host answers each question in its own time, and may answer the same question otherwise
when it is asked again. So the results of a command belong to the states that it goes
through: `Answered` says of each document in turn what the host let be found out about it.

`Classified` says what a command has classified: its documents in turn or, if a dash stands in
place of the first, what it is given to read and nothing else. `Told` is what it owes for the
results: the exit code tells whether any of them is a failure, every error is written out after
the warnings, and as a text each type has its own line, both in the order of the documents.

There is one failure that a run holds back (`HeldBack`): where reading what it is given fails, it
ends as if nothing had. A run that gets past its settings and its database tells all results but
for that one case (`run_told_iff`).
-/
import MediaSniff.CommandLine.Run
import MediaSniff.Proofs.Database.Faithful
import MediaSniff.Proofs.Descriptor.RoundTrip
import MediaSniff.Proofs.Text.Utf8

set_option autoImplicit false

namespace MediaSniff.CommandLine

variable {σ : Type} {host : Host (StateM σ)} {db : Database} {o : Options} {config : Config}
  {warnings : List String}

/-- Documents are classified one after the other, each with what the host says in its turn. -/
inductive Answered (host : Host (StateM σ)) (db : Database) (mode : Mode) (config : Config) :
    List String → σ → List Result → σ → Prop
  | nil (s : σ) : Answered host db mode config [] s [] s
  | cons {path : String} {paths : List String} {answer : Except ReadError TypeId}
      {results : List Result} {s s' s'' : σ}
      (here : (classifyFile host db mode config path).run s = (answer, s'))
      (later : Answered host db mode config paths s' results s'') :
      Answered host db mode config (path :: paths) s
        (⟨Path.displayName path, answer⟩ :: results) s''

/-- What a command classifies: each of its documents or, for a dash in place of the first, what it
is given to read. -/
inductive Classified (host : Host (StateM σ)) (db : Database) (o : Options) (config : Config)
    (s : σ) : List Result → σ → Prop
  | documents {results : List Result} {s' : σ} (named : o.readsInput = false)
      (answered : Answered host db o.mode config o.files s results s') :
      Classified host db o config s results s'
  | input {answer : Except ReadError TypeId} {s' : σ} (dash : o.readsInput = true)
      (read : (classifyInput host db o.mode
        { config with readLimit := config.readLimit.or (some inputLimit) }).run s = (answer, s')) :
      Classified host db o config s [⟨inputName, answer⟩] s'

/-- The settings are made and the database is loaded. -/
def Prepared (host : Host (StateM σ)) (o : Options) (s : σ) (warnings : List String)
    (config : Config) (db : Database) (s' : σ) : Prop :=
  ∃ given warning between, (startingConfig host o).run s = ((given, warning), between) ∧
    warnings = (warning.map fun text => s!"warning: {text}").toList ∧
    config = o.adjust given ∧ config.validate = .ok () ∧
    (loadDatabase host o config).run between = (.ok db, s')

/-- What is printed of a type that has been found for a document. -/
def printed (db : Database) (o : Options) (name : String) (id : TypeId) : String :=
  if 1 < o.files.length && !o.readsInput then s!"{name}: {Result.value db (o.has .human) id}"
  else Result.value db (o.has .human) id

/-- An outcome tells the results of a command. -/
structure Told (db : Database) (o : Options) (warnings : List String) (results : List Result)
    (out : Outcome) : Prop where
  /-- The exit code is 1 if some document failed. -/
  failed : out.code = 1 ↔ ∃ r ∈ results, ∃ e, r.answer = .error e
  /-- It is 0 if none did. -/
  clean : out.code = 0 ↔ ∀ r ∈ results, ∃ id, r.answer = .ok id
  /-- Behind the warnings, every error is written out. -/
  errors : out.errors = warnings ++ (results.filterMap Result.error?).map ReadError.fullMessage
  /-- As a text, every type is printed. -/
  lines : o.format.getD .text = .text →
    out.output = results.filterMap fun r => r.answer.toOption.map (printed db o r.name)

/-- A failure is held back: there is one, and it is that of what the command is given to read. -/
def HeldBack (o : Options) (results : List Result) : Prop :=
  o.readsInput = true ∧ ∃ r ∈ results, ∃ e, r.answer = .error e

/-! ## Results -/

theorem Result.line?_eq (r : Result) :
    r.line? db (o.has .human) (1 < o.files.length && !o.readsInput) =
      r.answer.toOption.map (printed db o r.name) := by
  obtain ⟨name, _ | id⟩ := r
  · rfl
  · rfl

theorem filterMap_error?_eq_nil {results : List Result} :
    results.filterMap Result.error? = [] ↔ ∀ r ∈ results, ∃ id, r.answer = .ok id := by
  rw [List.filterMap_eq_nil_iff]
  refine forall_congr' fun r => imp_congr_right fun _ => ?_
  obtain ⟨name, _ | id⟩ := r
  · simp [Result.error?]
  · simp [Result.error?]

theorem not_forall_ok {results : List Result} :
    (¬ ∀ r ∈ results, ∃ id, r.answer = .ok id) ↔ ∃ r ∈ results, ∃ e, r.answer = .error e := by
  push Not
  refine exists_congr fun r => and_congr_right fun _ => ?_
  obtain ⟨name, _ | id⟩ := r
  · simp
  · simp

/-- All errors count as failures unless one is held back. -/
theorem failures_eq_iff {results : List Result} :
    failures o results = results.filterMap Result.error? ↔ ¬ HeldBack o results := by
  rw [failures, HeldBack]
  split
  · rename_i dash
    rw [eq_comm, filterMap_error?_eq_nil, ← not_forall_ok]
    simp [dash]
  · rename_i named
    simp [named]

/-- **Results are told** unless a failure is held back. -/
theorem told_ofResults {results : List Result} (told : ¬ HeldBack o results) :
    Told db o warnings results
      { Outcome.ofResults db o results with
        errors := warnings ++ (Outcome.ofResults db o results).errors } := by
  have counted := failures_eq_iff.2 told
  have code : (Outcome.ofResults db o results).code =
      if ∀ r ∈ results, ∃ id, r.answer = .ok id then 0 else 1 := by
    rw [Outcome.ofResults, counted]
    simp only [List.isEmpty_iff, filterMap_error?_eq_nil]
  constructor
  case failed =>
    rw [code, ← not_forall_ok]
    split <;> simp_all
  case clean =>
    rw [code]
    split <;> simp_all
  case errors =>
    rw [Outcome.ofResults, counted]
  case lines =>
    intro text
    rw [Outcome.ofResults, text]
    exact List.filterMap_congr fun r _ => r.line?_eq

/-- What is given to read never counts as a failure. -/
theorem ofResults_of_readsInput (db : Database) (input : o.readsInput = true)
    (results : List Result) :
    (Outcome.ofResults db o results).code = 0 ∧ (Outcome.ofResults db o results).errors = [] := by
  rw [Outcome.ofResults, failures, if_pos input]
  exact ⟨rfl, rfl⟩

/-! ## Runs -/

/-- Two steps, of which the first leaves a state to the second. -/
theorem run_bind_eq {α β : Type} {x : StateM σ α} {f : α → StateM σ β} {s s' : σ} {a : α}
    (first : x.run s = (a, s')) : (x >>= f).run s = (f a).run s' := by
  rw [StateT.run_bind, first]
  rfl

/-- The results for a list of documents are those that the host gives them in turn. -/
theorem exists_answered (host : Host (StateM σ)) (db : Database) (mode : Mode) (config : Config)
    (paths : List String) (s : σ) :
    ∃ results s', Answered host db mode config paths s results s' ∧
      (paths.mapM fun path => do
        return (⟨Path.displayName path, ← classifyFile host db mode config path⟩ : Result)).run s =
          (results, s') := by
  induction paths generalizing s with
  | nil => exact ⟨[], s, .nil s, rfl⟩
  | cons path paths ih =>
      rcases here : (classifyFile host db mode config path).run s with ⟨answer, between⟩
      obtain ⟨results, s', answered, told⟩ := ih between
      refine ⟨_, s', .cons here answered, ?_⟩
      rw [List.mapM_cons, bind_assoc, run_bind_eq here, pure_bind, run_bind_eq told]
      rfl

/-- A command has results, whatever the host says. -/
theorem exists_classified (host : Host (StateM σ)) (db : Database) (o : Options) (config : Config)
    (s : σ) :
    ∃ results s', Classified host db o config s results s' ∧
      (classifyAll host db o config).run s = (results, s') := by
  rw [classifyAll]
  cases dash : o.readsInput with
  | false =>
      obtain ⟨results, s', answered, told⟩ := exists_answered host db o.mode config o.files s
      exact ⟨results, s', .documents dash answered, told⟩
  | true =>
      rcases read : (classifyInput host db o.mode
        { config with readLimit := config.readLimit.or (some inputLimit) }).run s with ⟨answer, s'⟩
      refine ⟨_, s', .input dash read, ?_⟩
      rw [if_pos rfl, run_bind_eq read]
      rfl

/-- A run that gets past its settings and its database leaves behind what its results make. -/
theorem runOptions_run {s s' s'' : σ} {results : List Result}
    (prepared : Prepared host o s warnings config db s')
    (classified : (classifyAll host db o config).run s' = (results, s'')) :
    (runOptions host o).run s =
      ({ Outcome.ofResults db o results with
          errors := warnings ++ (Outcome.ofResults db o results).errors }, s'') := by
  obtain ⟨given, warning, between, started, rfl, rfl, valid, loaded⟩ := prepared
  rw [runOptions, run_bind_eq started]
  simp only [valid]
  rw [run_bind_eq loaded]
  simp only
  rw [run_bind_eq classified]
  rfl

/-- **A command tells every failure but one.** Once the settings are made and the database is
loaded, the documents are classified or what the command is given to read, and the outcome tells
all results, unless reading what it is given has failed. Then nothing tells of that: the exit code
is 0, only the warnings are written out, and as a text no line is printed. -/
theorem run_told_iff {args : List String} {s s' : σ}
    (parsed : Options.ofArguments args = .ok o)
    (prepared : Prepared host o s warnings config db s') :
    ∃ results s'' out, Classified host db o config s' results s'' ∧
      (run host args).run s = (out, s'') ∧
      (Told db o warnings results out ↔ ¬ HeldBack o results) ∧
      (HeldBack o results → out.code = 0 ∧ out.errors = warnings ∧
        (o.format.getD .text = .text → out.output = [])) := by
  obtain ⟨results, s'', classified, done⟩ := exists_classified host db o config s'
  refine ⟨results, s'', _, classified, ?_, ⟨?_, told_ofResults⟩, ?_⟩
  · rw [run, parsed]
    exact runOptions_run prepared done
  · rintro told ⟨dash, failed⟩
    have zero := (ofResults_of_readsInput db dash results).1
    exact absurd (zero.symm.trans (told.failed.2 failed)) nofun
  · rintro ⟨dash, r, mem, e, failed⟩
    obtain ⟨zero, silent⟩ := ofResults_of_readsInput db dash results
    refine ⟨zero, by rw [silent, List.append_nil], fun text => ?_⟩
    -- The one result is the failure, and it has no line.
    cases classified with
    | documents named => exact absurd (named.symm.trans dash) nofun
    | input =>
        obtain rfl := List.mem_singleton.1 mem
        obtain rfl : _ = Except.error e := failed
        rw [Outcome.ofResults, text]
        rfl

/-- A database that is named is loaded from its file. -/
theorem loadDatabase_run {path : String} {file : Except Fault Stream} {s s' : σ}
    (named : o.database.or config.database = some path)
    (opens : (host.openAt none path).run s = (file, s')) (loaded : Database.ofFile file = .ok db) :
    (loadDatabase host o config).run s = (.ok db, s') := by
  rw [loadDatabase, named, run_bind_eq opens, loaded]
  rfl

/-- A file is loaded as the text that it holds. -/
theorem ofFile_of_text {text : String} (loads : Database.ofJson text = .ok db) :
    Database.ofFile (.ok [.bytes (Text.utf8 text)]) = .ok db := by
  have read : Stream.readText [.bytes (Text.utf8 text)] = .ok text := by
    rw [Stream.readText, Stream.readAll, Stream.readAll, Except.map]
    simp only [List.append_nil, Text.ofUtf8?_utf8, Option.elim_some]
  rw [Database.ofFile, Except.bind, read]
  simp only [loads]

/-- A desk with a file of types and a note on it, and something to read. -/
def deskHost (input : Stream) : Host (StateM Unit) where
  openAt _ path := pure <|
    if path = "types.json" then .ok [.bytes (Text.utf8 Database.shelf.render)]
    else if path = "a.note" then .ok [.bytes (Text.utf8 "note")]
    else .error .notFound
  survey path := pure (.error (.notFound path))
  input _ := pure input

theorem shelf_loads : ∃ db, Database.ofJson Database.shelf.render = .ok db := by
  have spelled : Json.parse? Database.shelf.render.toList = some Database.shelf.toJson := by
    rw [Descriptor.render, Json.render, String.toList_ofList]
    exact Database.shelf.proper_toJson.parse?_compact
  have described : Descriptor.parse? Database.shelf.render = some Database.shelf := by
    rw [Descriptor.parse?, spelled]
    rfl
  obtain ⟨db, loads⟩ := Database.loads_iff.2 (Database.loadable_of_sound Database.shelf_sound)
  exact ⟨db, by rw [Database.ofJson, described]; exact loads⟩

/-- A command about documents on the desk. -/
def deskOptions (files : List String) (flags : List Flag := []) : Options :=
  { files, flags, database := some "types.json" }

theorem desk_types (input : Stream) :
    ((deskHost input).openAt none "types.json").run () =
      (.ok [.bytes (Text.utf8 Database.shelf.render)], ()) := by
  rw [deskHost]
  simp only [if_true]
  rfl

theorem desk_prepared (loads : Database.ofJson Database.shelf.render = .ok db) (input : Stream)
    (files : List String) (flags : List Flag) :
    Prepared (deskHost input) (deskOptions files flags) () [] {} db () :=
  ⟨{}, none, (), rfl, rfl, rfl, rfl,
    loadDatabase_run rfl (desk_types input) (ofFile_of_text loads)⟩

/-- What can be read is classified. -/
theorem exists_classifyStream (db : Database) (data : Bytes) (name : String) (config : Config) :
    ∃ id, db.classifyStream [.bytes data] name config = .ok id := by
  have read : ∃ data', Stream.readUpTo (config.effectiveReadLimit db.magicReach) [.bytes data] =
      .ok data' := by
    rw [Stream.readUpTo]
    split
    · exact ⟨_, rfl⟩
    · exact ⟨_, rfl⟩
  obtain ⟨data', read⟩ := read
  exact ⟨_, by rw [Database.classifyStream, read]⟩

theorem desk_note (input : Stream) (db : Database) :
    ∃ id, (classifyFile (deskHost input) db .both {} "a.note").run () = (.ok id, ()) := by
  obtain ⟨id, read⟩ := exists_classifyStream db (Text.utf8 "note") "a.note" {}
  have named : Path.baseName "a.note" = "a.note" := by decide +kernel
  refine ⟨id, ?_⟩
  change (db.classifyDocument "a.note" (.ok [.bytes (Text.utf8 "note")]) {}, ()) = _
  rw [Database.classifyDocument, Database.classifyOpened, named, read]
  rfl

/-- The note is found and the other document is not. -/
theorem desk_documents {db : Database} {results : List Result} {s : Unit}
    (classified : Classified (deskHost []) db (deskOptions ["a.note", "missing.note"]) {} ()
      results s) :
    ∃ id, results = [⟨"a.note", .ok id⟩, ⟨"missing.note", .error (.notFound "missing.note")⟩] := by
  have names : ["a.note", "missing.note"].map Path.displayName = ["a.note", "missing.note"] := by
    decide +kernel
  rw [List.map_cons, List.map_singleton, List.cons.injEq, List.cons.injEq] at names
  obtain ⟨id, note⟩ := desk_note [] db
  cases classified with
  | input dash => cases dash
  | documents _ answered =>
      cases answered with
      | cons here later =>
          cases later with
          | cons here' later =>
              cases later
              cases here.symm.trans note
              cases here'
              rw [names.1, names.2.1]
              exact ⟨id, rfl⟩

/-- What lies on the desk to be read can be read. -/
theorem desk_input {db : Database} {data : Bytes} {results : List Result} {s : Unit}
    (classified : Classified (deskHost [.bytes data]) db (deskOptions ["-"]) {} () results s) :
    ∃ id, results = [⟨"-", .ok id⟩] := by
  obtain ⟨id, type⟩ := exists_classifyStream db data "" { readLimit := some inputLimit }
  cases classified with
  | documents named => cases named
  | input _ read =>
      refine ⟨id, ?_⟩
      have answered : (db.classifyStream [.bytes data] "" { readLimit := some inputLimit }, ()) =
          (_, s) := read
      rw [type] at answered
      cases answered
      rfl

/-- Of two documents one is missing, and both are told. What is given to read instead of documents
is told too, where it can be read. -/
theorem desk_told :
    ∃ db id id' out out',
      Prepared (deskHost []) (deskOptions ["a.note", "missing.note"]) () [] {} db () ∧
      (run (deskHost []) ["--database", "types.json", "a.note", "missing.note"]).run () =
        (out, ()) ∧
      out.code = 1 ∧ out.errors = ["No such file or directory: missing.note"] ∧
      out.output = [s!"a.note: {Result.value db false id}"] ∧
      Prepared (deskHost [.bytes (Text.utf8 "note")]) (deskOptions ["-"]) () [] {} db () ∧
      (run (deskHost [.bytes (Text.utf8 "note")]) ["--database", "types.json", "-"]).run () =
        (out', ()) ∧
      out'.code = 0 ∧ out'.errors = [] ∧ out'.output = [Result.value db false id'] := by
  obtain ⟨db, loads⟩ := shelf_loads
  have notes := desk_prepared loads [] ["a.note", "missing.note"] []
  have parsed : Options.ofArguments ["--database", "types.json", "a.note", "missing.note"] =
      .ok (deskOptions ["a.note", "missing.note"]) := by
    decide +kernel
  have given := desk_prepared loads [.bytes (Text.utf8 "note")] ["-"] []
  have parsed' : Options.ofArguments ["--database", "types.json", "-"] =
      .ok (deskOptions ["-"]) := by
    decide +kernel
  obtain ⟨results, _, out, classified, ran, told, -⟩ := run_told_iff parsed notes
  obtain ⟨results', _, out', classified', ran', told', -⟩ := run_told_iff parsed' given
  obtain ⟨id, rfl⟩ := desk_documents classified
  obtain ⟨id', rfl⟩ := desk_input classified'
  have told := told.2 fun held => nomatch held.1
  have told' := told'.2 fun ⟨_, r, mem, e, failed⟩ => by
    obtain rfl := List.mem_singleton.1 mem
    cases failed
  refine ⟨db, id, id', out, out', notes, ran, told.failed.2 ?_, told.errors, told.lines rfl, given,
    ran', told'.clean.2 ?_, told'.errors, told'.lines rfl⟩
  · exact ⟨_, List.mem_cons_of_mem _ List.mem_cons_self, _, rfl⟩
  · exact fun r mem => ⟨id', by rw [List.mem_singleton.1 mem]⟩

/-- **A failure of what is given to read is held back**: it is a directory, which cannot be read,
and the run ends with code 0 and without a word. -/
theorem desk_held_back :
    ∃ db, Prepared (deskHost [.fault .isDirectory]) (deskOptions ["-"] [.xml]) () [] {} db () ∧
      Classified (deskHost [.fault .isDirectory]) db (deskOptions ["-"] [.xml]) {} ()
        [⟨"-", .error (.failed "-" .isDirectory)⟩] () ∧
      (run (deskHost [.fault .isDirectory]) ["-x", "--database", "types.json", "-"]).run () =
        ({ code := 0, output := [], errors := [] }, ()) ∧
      ¬ Told db (deskOptions ["-"] [.xml]) [] [⟨"-", .error (.failed "-" .isDirectory)⟩]
        { code := 0, output := [], errors := [] } := by
  obtain ⟨db, loads⟩ := shelf_loads
  have prepared := desk_prepared loads [.fault .isDirectory] ["-"] [.xml]
  have parsed : Options.ofArguments ["-x", "--database", "types.json", "-"] =
      .ok (deskOptions ["-"] [.xml]) := by
    decide +kernel
  refine ⟨db, prepared, .input rfl rfl, ?_, fun told => ?_⟩
  · rw [run, parsed]
    exact runOptions_run prepared rfl
  · exact absurd (told.failed.2 ⟨_, List.mem_cons_self, _, rfl⟩) nofun

end MediaSniff.CommandLine
