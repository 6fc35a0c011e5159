/-
# MediaSniff.CommandLine.Options — what a command asks for

A command names documents and says how to classify them and how to print the answers.
-/
import MediaSniff.Preference

set_option autoImplicit false

namespace MediaSniff.CommandLine

/-- How answers are printed. -/
inductive Format where
  | text
  | json
  deriving DecidableEq, Repr, Inhabited

/-- The format of a name. -/
def Format.ofName? : String → Option Format
  | "text" => some .text
  | "json" => some .json
  | _ => none

/-- What a document is classified by. -/
inductive Mode where
  /-- By its content and its name. -/
  | both
  | content
  | name
  /-- By its root element. -/
  | xml
  /-- By the directory that it is or stands in. -/
  | tree
  deriving DecidableEq, Repr, Inhabited

/-- An option that is on or off. -/
inductive Flag where
  | contentOnly
  | nameOnly
  | xml
  | tree
  | human
  deriving DecidableEq, Repr, Inhabited

/-- Everything a command says. Files stand in the order given. -/
structure Options where
  files : List String := []
  flags : List Flag := []
  limit : Option Nat := none
  prefer : Option Preference := none
  config : Option String := none
  database : Option String := none
  format : Option Format := none
  deriving DecidableEq, Repr, Inhabited

namespace Options

/-- Whether a flag is given. -/
def has (o : Options) (flag : Flag) : Bool := o.flags.contains flag

/-- What documents are classified by. Of the flags that say so, the first one in this
order counts. -/
def mode (o : Options) : Mode :=
  if o.has .contentOnly then .content
  else if o.has .nameOnly then .name
  else if o.has .xml then .xml
  else if o.has .tree then .tree
  else .both

end Options

end MediaSniff.CommandLine
