/-
# MediaSniff.CommandLine.Arguments — reading a command

Options start with a dash and a letter or with two dashes and a word; letters may be run
together. An option that takes a value has it behind an equals sign, directly behind its
letter, or in the next argument, which must then not look like an option. A dash alone
is a file, and behind two dashes alone there are only files.

Arguments are read from left to right, and what is wrong with one of them is noticed
there; a request for help or for the version is granted as soon as it is met. Only then
is it asked whether the options go together and whether there is a file at all.
-/
import MediaSniff.CommandLine.Options
import MediaSniff.CommandLine.Usage
import MediaSniff.Text.Numeral

set_option autoImplicit false

namespace MediaSniff.CommandLine

/-- An option that takes a value. -/
inductive Setting where
  | limit
  | prefer
  | config
  | database
  | format
  deriving DecidableEq, Repr, Inhabited

/-- An option. -/
inductive Switch where
  | flag (flag : Flag)
  | setting (setting : Setting)
  | verbose
  | help
  | version
  deriving DecidableEq, Repr, Inhabited

/-- The option of a word. -/
def Switch.ofWord? : String → Option Switch
  | "content-only" => some (.flag .contentOnly)
  | "filename-only" => some (.flag .nameOnly)
  | "xml" => some (.flag .xml)
  | "tree" => some (.flag .tree)
  | "human" => some (.flag .human)
  | "limit" => some (.setting .limit)
  | "prefer" => some (.setting .prefer)
  | "config" => some (.setting .config)
  | "database" => some (.setting .database)
  | "format" => some (.setting .format)
  | "verbose" => some .verbose
  | "help" => some .help
  | "version" => some .version
  | _ => none

/-- The option of a letter. -/
def Switch.ofLetter? : Char → Option Switch
  | 'c' => some (.flag .contentOnly)
  | 'f' => some (.flag .nameOnly)
  | 'x' => some (.flag .xml)
  | 't' => some (.flag .tree)
  | 'i' => some (.flag .human)
  | 'l' => some (.setting .limit)
  | 'v' => some .verbose
  | 'h' => some .help
  | 'V' => some .version
  | _ => none

def Flag.name : Flag → String
  | .contentOnly => "--content-only"
  | .nameOnly => "--filename-only"
  | .xml => "--xml"
  | .tree => "--tree"
  | .human => "--human"

def Setting.name : Setting → String
  | .limit => "--limit <N>"
  | .prefer => "--prefer <default|magic|glob>"
  | .config => "--config <PATH>"
  | .database => "--database <PATH>"
  | .format => "--format <FORMAT>"

/-- Why reading a command ends before its options can be obeyed. -/
inductive Stop where
  | help
  | version
  | refused (cause : UsageError)
  deriving DecidableEq, Repr

/-- A number of bytes. -/
def byteCount? (value : String) : Option Nat :=
  Text.signedNatural? 10 (Nat.pow 2 64) value.toList

/-- The path of a file. -/
def path? (value : String) : Option String := if value.isEmpty then none else some value

/-- The value of a setting that must not be given before. -/
def single {α : Type} (setting : Setting) (old : Option α) (value : String)
    (read? : String → Option α) : Except Stop (Option α) :=
  match read? value with
  | none => .error (.refused (.invalidValue setting.name value))
  | some v => if old.isSome then .error (.refused (.repeated setting.name)) else .ok (some v)

namespace Options

/-- Set a flag. -/
def addFlag (o : Options) (flag : Flag) : Except Stop Options :=
  if o.has flag then .error (.refused (.repeated flag.name))
  else .ok { o with flags := o.flags ++ [flag] }

/-- Give a setting its value. -/
def addSetting (o : Options) (setting : Setting) (value : String) : Except Stop Options :=
  match setting with
  | .limit => do pure { o with limit := ← single setting o.limit value byteCount? }
  | .prefer => do
      pure { o with prefer := ← single setting o.prefer value (Preference.parse · |>.toOption) }
  | .config => do pure { o with config := ← single setting o.config value path? }
  | .database => do pure { o with database := ← single setting o.database value path? }
  | .format => do pure { o with format := ← single setting o.format value Format.ofName? }

/-- Name a file. -/
def addFile (o : Options) (file : String) : Except Stop Options :=
  match path? file with
  | some file => .ok { o with files := o.files ++ [file] }
  | none => .error (.refused (.missingValue "<FILE>..."))

/-- Turn an option on that takes no value. -/
def addSwitch (o : Options) (switch : Switch) : Except Stop Options :=
  match switch with
  | .flag flag => o.addFlag flag
  | .setting setting => .error (.refused (.missingValue setting.name))
  | .verbose => .ok o
  | .help => .error .help
  | .version => .error .version

/-- Take in a word behind two dashes, with the value behind its equals sign if there is
one. The setting that still needs a value comes out. -/
def addWord (o : Options) (word : String) (value : Option String) :
    Except Stop (Options × Option Setting) :=
  match Switch.ofWord? word, value with
  | none, _ => .error (.refused (.unexpectedArgument s!"--{word}"))
  | some (.setting setting), some value => (o.addSetting setting value).map (·, none)
  | some (.setting setting), none => .ok (o, some setting)
  | some _, some value => .error (.refused (.unneededValue s!"--{word}" value))
  | some switch, none => (o.addSwitch switch).map (·, none)

/-- Take in the letters behind a dash. The setting that still needs a value comes
out. -/
def addLetters (o : Options) : List Char → Except Stop (Options × Option Setting)
  | [] => .ok (o, none)
  | c :: cs =>
      match Switch.ofLetter? c with
      | none => .error (.refused (.unexpectedArgument s!"-{c}"))
      | some (.setting setting) =>
          match cs with
          | [] => .ok (o, some setting)
          | '=' :: value => (o.addSetting setting (String.ofList value)).map (·, none)
          | value => (o.addSetting setting (String.ofList value)).map (·, none)
      | some switch =>
          match o.addSwitch switch with
          | .ok o => o.addLetters cs
          | .error stop => .error stop

/-- Take in an argument. The setting that still needs a value comes out. -/
def addArgument (o : Options) (arg : String) : Except Stop (Options × Option Setting) :=
  match arg.toList with
  | '-' :: '-' :: cs =>
      let word := String.ofList (cs.takeWhile (· ≠ '='))
      match cs.dropWhile (· ≠ '=') with
      | _ :: value => o.addWord word (some (String.ofList value))
      | [] => o.addWord word none
  | '-' :: c :: cs => o.addLetters (c :: cs)
  | _ => (o.addFile arg).map (·, none)

/-- Whether an argument looks like an option. -/
def looksLikeOption (arg : String) : Bool :=
  match arg.toList with
  | '-' :: _ :: _ => true
  | _ => false

/-- Take in all arguments; if a setting still needs a value, the first of them is it. -/
def addArguments (o : Options) (waiting : Option Setting) : List String → Except Stop Options
  | [] =>
      match waiting with
      | some setting => .error (.refused (.missingValue setting.name))
      | none => .ok o
  | arg :: args =>
      match waiting with
      | some setting =>
          if looksLikeOption arg then .error (.refused (.missingValue setting.name))
          else
            match o.addSetting setting arg with
            | .ok o => o.addArguments none args
            | .error stop => .error stop
      | none =>
          if arg = "--" then args.foldlM addFile o
          else
            match o.addArgument arg with
            | .ok (o, waiting) => o.addArguments waiting args
            | .error stop => .error stop

/-- Flags that exclude each other. -/
def exclusions : List (Flag × Flag) := [
  (.xml, .contentOnly), (.xml, .nameOnly), (.xml, .tree),
  (.tree, .contentOnly), (.tree, .nameOnly)]

/-- Why options cannot be obeyed, if they cannot. -/
def objection? (o : Options) : Option UsageError :=
  match exclusions.find? fun pair => o.has pair.1 && o.has pair.2 with
  | some (flag, other) => some (.conflict flag.name other.name)
  | none => if o.files.isEmpty then some .missingFiles else none

/-- Read the arguments of a command. -/
def ofArguments (args : List String) : Except Stop Options :=
  match addArguments {} none args with
  | .error stop => .error stop
  | .ok o =>
      match o.objection? with
      | some cause => .error (.refused cause)
      | none => .ok o

end Options

end MediaSniff.CommandLine
