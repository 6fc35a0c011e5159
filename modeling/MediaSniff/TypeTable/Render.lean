/-
# MediaSniff.TypeTable.Render — a table as program text

A table is made part of a program by writing it as a constant, next to the document that
it comes from. Texts are written between quotes; quotes, backslashes, control characters
and all white space but the space are escaped.
-/
import MediaSniff.Text.Blank
import MediaSniff.TypeTable

set_option autoImplicit false

namespace MediaSniff.TypeTable

/-- A character as it is written between quotes. -/
def escapeChar (c : Char) : List Char :=
  if c = '"' then ['\\', '"']
  else if c = '\\' then ['\\', '\\']
  else if c = '\n' then ['\\', 'n']
  else if c = '\r' then ['\\', 'r']
  else if c = '\t' then ['\\', 't']
  else if c = '\x00' then ['\\', '0']
  else if c ≠ ' ' && (Text.isControl c || Text.isBlank c) then
    ['\\', 'u', '\x7b'] ++ Nat.toDigits 16 c.toNat ++ ['\x7d']
  else [c]

/-- A text between quotes. -/
def quoted (s : String) : String :=
  String.ofList ('"' :: s.toList.flatMap escapeChar ++ ['"'])

/-- The line of a row. -/
def rowLine (row : TypeRow) : String := s!"    ({quoted row.name}, {quoted row.comment}),\n"

/-- The program text that holds the document in a file and its table. -/
def render (source : String) (rows : List TypeRow) : String :=
  "// Generated by build.rs from the type database. Do not edit.\n\n" ++
    "/// The raw type-description database, as shipped.\n" ++
    "pub const DATABASE_JSON: &str = include_str!(" ++ quoted source ++ ");\n\n" ++
    "/// (media type, comment) pairs in id order.\n" ++
    "pub const TYPE_NAMES: &[(&str, &str)] = &[\n" ++
    String.join (rows.map rowLine) ++ "];\n"

/-- What is announced while a table is made: that it has to be made anew when another
document is chosen or the document changes. -/
def announcement (source : String) : String :=
  "cargo:rerun-if-env-changed=MIMEPROBE_DB\n" ++ s!"cargo:rerun-if-changed={source}\n"

end MediaSniff.TypeTable
