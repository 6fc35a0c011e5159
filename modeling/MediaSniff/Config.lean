/-
# MediaSniff.Config — settings

Settings say how much of a document is read, how much of it is scanned for a root
element, what to trust when name and content disagree, and which database to use. A
builder collects them and gives them out once they are valid; giving them out empties
it, whether they are valid or not.
-/
import MediaSniff.Json.Value
import MediaSniff.Preference
import MediaSniff.Xml.Decoding

set_option autoImplicit false

namespace MediaSniff

/-- Why settings are refused. -/
inductive ConfigError where
  | zeroReadLimit
  | xmlLimitTooLarge (limit : Nat)
  deriving DecidableEq, Repr

/-- The wording of each cause. -/
def ConfigError.message : ConfigError → String
  | .zeroReadLimit => "read-limit must be greater than zero"
  | .xmlLimitTooLarge limit => s!"xml-limit {limit} exceeds the maximum of {Xml.scanLimit}"

/-- Settings. -/
structure Config where
  /-- How many bytes are read; without it, as many as the content rules can look at. -/
  readLimit : Option Nat := none
  /-- How many bytes are scanned for a root element. -/
  xmlLimit : Option Nat := none
  preference : Preference := .default
  /-- The file of a database to use in place of the built-in one. -/
  database : Option String := none
  deriving DecidableEq, Repr, Inhabited

namespace Config

/-- Refuse settings that make no sense. -/
def validate (c : Config) : Except ConfigError Unit :=
  if c.readLimit = some 0 then .error .zeroReadLimit
  else match c.xmlLimit with
    | some limit =>
        if Xml.scanLimit < limit then .error (.xmlLimitTooLarge limit) else .ok ()
    | none => .ok ()

/-- How many bytes to read for content rules that can look at `reach` bytes. -/
def effectiveReadLimit (c : Config) (reach : Nat) : Nat :=
  match c.readLimit with
  | some limit => if limit < reach then limit else reach
  | none => reach

/-- How many bytes to scan for a root element. -/
def effectiveXmlLimit (c : Config) : Nat :=
  c.xmlLimit.elim Xml.scanLimit (min · Xml.scanLimit)

/-- The settings as JSON. What is not set is left out, except for the preference. -/
def toJson (c : Config) : Json :=
  .ofMembers <|
    (c.readLimit.map fun n => ("read-limit", Json.ofNat n)).toList ++
    (c.xmlLimit.map fun n => ("xml-limit", Json.ofNat n)).toList ++
    [("preference", .ofString c.preference.name)] ++
    (c.database.map fun path => ("database", Json.ofString path)).toList

end Config

/-- Settings that are being collected. -/
structure ConfigBuilder where
  readLimit : Option Nat := none
  xmlLimit : Option Nat := none
  preference : Option Preference := none
  database : Option String := none
  deriving DecidableEq, Repr, Inhabited

namespace ConfigBuilder

/-- The settings collected, and an empty builder. -/
def build (b : ConfigBuilder) : Except ConfigError Config × ConfigBuilder :=
  let config : Config := {
    readLimit := b.readLimit
    xmlLimit := b.xmlLimit
    preference := b.preference.getD .default
    database := b.database }
  (config.validate.map fun _ => config, {})

end ConfigBuilder

end MediaSniff
