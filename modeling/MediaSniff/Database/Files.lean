/-
# MediaSniff.Database.Files — classifying what a path leads to

A document at a path is classified by its content and by the last name in the path.
Errors are reported at the path. A directory is classified by what stands in it;
anything else that is asked about in this way stands for the directory that holds it,
but is of the unknown type if that directory is of no known layout.
-/
import MediaSniff.Database.Reader
import MediaSniff.Layout.Survey
import MediaSniff.Path

set_option autoImplicit false

namespace MediaSniff

/-- Why a file does not make a database. -/
inductive DatabaseFileError where
  | unreadable (fault : Fault)
  | invalid (cause : LoadError)
  deriving DecidableEq, Repr

namespace DatabaseFileError

/-- The wording of each cause, for a file at a path. -/
def message (path : String) : DatabaseFileError → String
  | .unreadable _ => s!"failed to read type database {path}"
  | .invalid _ => s!"invalid type database {path}"

/-- The wording of each cause and of what is behind it. -/
def fullMessage (path : String) (e : DatabaseFileError) : String :=
  match e with
  | .unreadable fault => s!"{e.message path}: {fault.systemText}"
  | .invalid cause => s!"{e.message path}: {cause.fullMessage}"

end DatabaseFileError

namespace Database

/-- The database in a file that has been opened, or could not be. -/
def ofFile (opened : Except Fault Stream) : Except DatabaseFileError Database :=
  match opened.bind Stream.readText with
  | .error fault => .error (.unreadable fault)
  | .ok text =>
      match ofJson text with
      | .ok db => .ok db
      | .error cause => .error (.invalid cause)

/-- Classify a document that has been opened at a path, or could not be, by its content
and a name. -/
def classifyOpened (db : Database) (path name : String) (opened : Except Fault Stream)
    (config : Config) : Except ReadError TypeId :=
  match opened with
  | .error fault => .error (.ofFault path fault)
  | .ok stream => (db.classifyStream stream name config).mapError (ReadError.withPath path)

/-- Classify a document at a path by its content and its name. -/
def classifyDocument (db : Database) (path : String) (opened : Except Fault Stream)
    (config : Config) : Except ReadError TypeId :=
  db.classifyOpened path (Path.baseName path) opened config

/-- Classify an XML document at a path by its root element. -/
def classifyXmlDocument (db : Database) (path : String) (opened : Except Fault Stream)
    (limit : Option Nat) : Except ReadError TypeId :=
  match opened with
  | .error fault => .error (.ofFault path fault)
  | .ok stream => (db.classifyXmlStream stream limit).mapError (ReadError.withPath path)

/-- Classify something by the directory that it is or stands in. -/
def classifySurvey (db : Database) (surveyed : Except ReadError Layout.Survey) :
    Except ReadError TypeId :=
  match surveyed with
  | .error e => .error e
  | .ok survey =>
      let fallback :=
        if survey.isDirectory then db.sentinels.directory else db.sentinels.unknown
      .ok ((db.classifySnapshot? survey.snapshot).getD fallback)

end Database

end MediaSniff
