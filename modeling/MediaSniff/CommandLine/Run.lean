/-
# MediaSniff.CommandLine.Run — obeying a command

A command is obeyed in four steps: its settings are put together, the database is
loaded, every document is classified, and the results are told. A mistake in the first
two steps ends the run with exit code 2. Later a document that cannot be read is no
reason to stop: the error is told, and the exit code is 1 at the end.

A dash in place of the first document stands for what the program is given to read; all
other documents are then passed over, and an error is told in the report alone.
-/
import MediaSniff.Builtin
import MediaSniff.CommandLine.Arguments
import MediaSniff.CommandLine.Report
import MediaSniff.Config.Load
import MediaSniff.Database.Files
import MediaSniff.Host

set_option autoImplicit false

namespace MediaSniff.CommandLine

/-- What a run leaves behind: its exit code and the lines that it has printed. -/
structure Outcome where
  code : Nat
  output : List String := []
  errors : List String := []
  deriving DecidableEq, Repr, Inhabited

/-- Lines as one text, with a line end behind each. -/
def unlines (lines : List String) : String := String.join (lines.map (· ++ "\n"))

/-- The outcome of a command that is not to be obeyed. -/
def Outcome.ofStop : Stop → Outcome
  | .help => { code := 0, output := [helpText] }
  | .version => { code := 0, output := [versionText] }
  | .refused cause => { code := 2, errors := [cause.report] }

/-- The outcome of a run that ends before any document is classified. -/
def Outcome.fatal (warnings : List String) (message : String) : Outcome where
  code := 2
  errors := warnings ++ [s!"fatal error: {message}"]

/-- How many bytes are read of what the program is given to read, if nothing is said. -/
def inputLimit : Nat := 512

/-- The name of what the program is given to read. -/
def inputName : String := "-"

/-- Settings as the options change them. -/
def Options.adjust (o : Options) (config : Config) : Config :=
  let config := match o.prefer with
    | some preference => { config with preference }
    | none => config
  match o.limit with
  | some limit => { config with readLimit := some limit, xmlLimit := some (min limit Xml.scanLimit) }
  | none => config

/-- Whether the program is to classify what it is given to read. -/
def Options.readsInput (o : Options) : Bool := o.files.head? == some inputName

variable {m : Type → Type} [Monad m]

/-- The settings that a command starts from, and the warning that comes with them. -/
def startingConfig (host : Host m) (o : Options) : m (Config × Option String) :=
  match o.config with
  | none => pure ({}, none)
  | some path => do return Config.loadOrDefault path (← host.openAt none path)

/-- The database that a command uses, or what is wrong with it. -/
def loadDatabase (host : Host m) (o : Options) (config : Config) : m (Except String Database) :=
  match o.database.or config.database with
  | none => pure (builtin?.mapError fun e => s!"built-in type database is invalid: {e.message}")
  | some path => do
      return (Database.ofFile (← host.openAt none path)).mapError (·.fullMessage path)

/-- Classify what the program is given to read. It has no name and is no directory, so
all modes but one come down to its content. -/
def classifyInput (host : Host m) (db : Database) (mode : Mode) (config : Config) :
    m (Except ReadError TypeId) :=
  match mode with
  | .xml => do
      return db.classifyXmlStream (← host.input (Database.xmlWindow config.xmlLimit)) config.xmlLimit
  | _ => do
      return db.classifyStream (← host.input (config.effectiveReadLimit db.magicReach)) "" config

/-- Classify a document. -/
def classifyFile (host : Host m) (db : Database) (mode : Mode) (config : Config)
    (path : String) : m (Except ReadError TypeId) :=
  let limit := config.effectiveReadLimit db.magicReach
  match mode with
  | .name => pure (.ok (db.classifyName (Path.baseName path)))
  | .content => do return db.classifyOpened path "" (← host.openAt (some limit) path) config
  | .xml => do
      let opened ← host.openAt (some (Database.xmlWindow config.xmlLimit)) path
      return db.classifyXmlDocument path opened config.xmlLimit
  | .tree => do return db.classifySurvey (← host.survey path)
  | .both => do return db.classifyDocument path (← host.openAt (some limit) path) config

/-- The results for all documents of a command. -/
def classifyAll (host : Host m) (db : Database) (o : Options) (config : Config) :
    m (List Result) :=
  if o.readsInput then do
    let config := { config with readLimit := config.readLimit.or (some inputLimit) }
    return [⟨inputName, ← classifyInput host db o.mode config⟩]
  else
    o.files.mapM fun path => do
      return ⟨Path.displayName path, ← classifyFile host db o.mode config path⟩

/-- The errors that count as failures of a command. -/
def failures (o : Options) (results : List Result) : List ReadError :=
  if o.readsInput then [] else results.filterMap Result.error?

/-- What a command leaves behind once all documents are classified. -/
def Outcome.ofResults (db : Database) (o : Options) (results : List Result) : Outcome :=
  let failed := failures o results
  let named := 1 < o.files.length && !o.readsInput
  { code := if failed.isEmpty then 0 else 1
    output := reportLines db (o.format.getD .text) (o.has .human) named results
    errors := failed.map ReadError.fullMessage }

/-- Obey options. -/
def runOptions (host : Host m) (o : Options) : m Outcome := do
  let (config, warning) ← startingConfig host o
  let warnings := (warning.map fun text => s!"warning: {text}").toList
  let config := o.adjust config
  match config.validate with
  | .error cause => return .fatal warnings s!"invalid options: {cause.message}"
  | .ok _ =>
      match ← loadDatabase host o config with
      | .error message => return .fatal warnings message
      | .ok db =>
          let outcome := Outcome.ofResults db o (← classifyAll host db o config)
          return { outcome with errors := warnings ++ outcome.errors }

/-- Obey a command. -/
def run (host : Host m) (args : List String) : m Outcome :=
  match Options.ofArguments args with
  | .error stop => pure (.ofStop stop)
  | .ok o => runOptions host o

end MediaSniff.CommandLine
