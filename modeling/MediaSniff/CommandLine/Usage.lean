/-
# MediaSniff.CommandLine.Usage — commands that cannot be obeyed

The causes for which a command is refused, and the texts that help to write a better
one.
-/
set_option autoImplicit false

namespace MediaSniff.CommandLine

/-- The name of the program. -/
def programName : String := "mimeprobe"

/-- The version of the program. -/
def version : String := "0.3.0"

/-- Why a command is refused. -/
inductive UsageError where
  | unexpectedArgument (arg : String)
  /-- An option stands without the value that it needs. -/
  | missingValue (option : String)
  | invalidValue (option value : String)
  /-- A value is given to an option that takes none. -/
  | unneededValue (option value : String)
  | repeated (option : String)
  /-- Two options exclude each other. -/
  | conflict (option other : String)
  /-- No file is named. -/
  | missingFiles
  deriving DecidableEq, Repr

/-- The wording of each cause. -/
def UsageError.message : UsageError → String
  | .unexpectedArgument arg => s!"unexpected argument '{arg}' found"
  | .missingValue option => s!"a value is required for '{option}' but none was supplied"
  | .invalidValue option value => s!"invalid value '{value}' for '{option}'"
  | .unneededValue option value =>
      s!"unexpected value '{value}' for '{option}' found; no more were expected"
  | .repeated option => s!"the argument '{option}' cannot be used multiple times"
  | .conflict option other => s!"the argument '{option}' cannot be used with '{other}'"
  | .missingFiles => "the following required arguments were not provided:\n  <FILE>..."

/-- How a command is written. -/
def usageLine : String := s!"Usage: {programName} [OPTIONS] <FILE>..."

/-- What is said about a command that is refused. -/
def UsageError.report (e : UsageError) : String :=
  s!"error: {e.message}\n\n{usageLine}\n\nFor more information, try '--help'."

/-- The options and what they are for. -/
def optionHelp : List (String × String) := [
  ("-c, --content-only", "Use only the file content (takes precedence over -f)"),
  ("-f, --filename-only", "Use only the file name; the file need not exist"),
  ("-x, --xml", "Match the XML root element and its namespace"),
  ("-t, --tree", "Match the directory layout of a mounted volume"),
  ("-i, --human", "Print the type description instead of the media type"),
  ("-l, --limit <N>", "Number of leading bytes to examine"),
  ("    --prefer <default|magic|glob>", "Which signal wins when filename and content disagree"),
  ("    --config <PATH>", "TOML config file"),
  ("    --database <PATH>", "Alternate JSON type database"),
  ("    --format <FORMAT>", "Output format [default: text] [possible values: text, json]"),
  ("-v, --verbose...", "Verbose logging (-v debug, -vv trace)"),
  ("-h, --help", "Print help"),
  ("-V, --version", "Print version")]

/-- A text with blanks behind it up to a width. -/
def padded (width : Nat) (s : String) : String :=
  s ++ String.ofList (List.replicate (width - s.length) ' ')

/-- What the program tells about itself. -/
def helpText : String :=
  let width := (optionHelp.map fun line => line.1.length).foldl max 0
  "\n".intercalate <| [
    "Determine the MIME type of files", "", usageLine, "", "Arguments:",
    "  <FILE>...  Files to test; `-` reads standard input and ignores the rest", "",
    "Options:"] ++
    optionHelp.map fun line => "  " ++ padded width line.1 ++ "  " ++ line.2

/-- The version as the program prints it. -/
def versionText : String := s!"{programName} {version}"

end MediaSniff.CommandLine
