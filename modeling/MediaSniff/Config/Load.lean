/-
# MediaSniff.Config.Load — settings from a file

A file of settings is a table with a value for each setting that it makes; a key that is
no setting is a mistake. Limits are integers that are not negative. A preference is
written as its name, or as a table whose only key is its name and which holds nothing.

A file that cannot be used is never passed over in silence: the defaults then come with
a warning.
-/
import MediaSniff.Config
import MediaSniff.Stream
import MediaSniff.Toml.Parse

set_option autoImplicit false

namespace MediaSniff

/-- The preference that a value stands for. -/
def Preference.ofToml? : Toml → Option Preference
  | .text name => ofName? name
  | .table _ [(name, .table _ [])] => ofName? name
  | .table _ [(name, .array [])] => ofName? name
  | _ => none

/-- Why a file of settings cannot be used. -/
inductive ConfigFileError where
  | unreadable (fault : Fault)
  /-- The file is not TOML, or does not make settings. -/
  | malformed
  | invalid (cause : ConfigError)
  deriving DecidableEq, Repr

namespace ConfigFileError

/-- The wording of each cause, for a file at a path. -/
def message (path : String) : ConfigFileError → String
  | .unreadable _ => s!"failed to read config {path}"
  | .malformed => s!"failed to parse config {path}"
  | .invalid cause => cause.message

/-- The wording of each cause and of the fault behind it. -/
def fullMessage (path : String) (e : ConfigFileError) : String :=
  match e with
  | .unreadable fault => s!"{e.message path}: {fault.systemText}"
  | _ => e.message path

end ConfigFileError

namespace Config

/-- The keys of all settings. -/
def keys : List String := ["read-limit", "xml-limit", "preference", "database"]

/-- A setting that may be missing. -/
def setting? {α : Type} (entries : Toml.Entries) (key : String) (read? : Toml → Option α) :
    Option (Option α) :=
  match entries.get? key with
  | none => some none
  | some v => (read? v).map some

/-- A number of bytes. -/
def limit? : Toml → Option Nat
  | .integer n => if 0 ≤ n then some n.toNat else none
  | _ => none

/-- The path of a file. -/
def path? : Toml → Option String
  | .text s => some s
  | _ => none

/-- The settings that a table makes. -/
def ofToml? (entries : Toml.Entries) : Option Config :=
  if entries.all fun e => keys.contains e.1 then do
    some {
      readLimit := ← setting? entries "read-limit" limit?
      xmlLimit := ← setting? entries "xml-limit" limit?
      preference := (← setting? entries "preference" Preference.ofToml?).getD .default
      database := ← setting? entries "database" path? }
  else none

/-- The valid settings that a text makes. -/
def parse (text : String) : Except ConfigFileError Config :=
  match (Toml.parse? text).bind ofToml? with
  | none => .error .malformed
  | some config =>
      match config.validate with
      | .ok _ => .ok config
      | .error cause => .error (.invalid cause)

/-- The settings in a file that has been opened, or could not be. -/
def load (opened : Except Fault Stream) : Except ConfigFileError Config :=
  match opened.bind Stream.readText with
  | .ok text => parse text
  | .error fault => .error (.unreadable fault)

/-- The settings in a file at a path, or the defaults and a warning. -/
def loadOrDefault (path : String) (opened : Except Fault Stream) : Config × Option String :=
  match load opened with
  | .ok config => (config, none)
  | .error e =>
      ({}, some s!"could not load config {path}: {e.fullMessage path}; using defaults")

end Config

end MediaSniff
