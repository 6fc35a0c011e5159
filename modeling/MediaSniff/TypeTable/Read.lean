/-
# MediaSniff.TypeTable.Read — the table of a database document

A table of names and comments can be read without knowing the rules of a database, and
without checking them: every entry must have the name of a type, and its comment counts
if it is a text. Documents beyond a size are refused unread.
-/
import MediaSniff.Json.Whole
import MediaSniff.Stream
import MediaSniff.Text.Blank
import MediaSniff.TypeTable

set_option autoImplicit false

namespace MediaSniff.TypeTable

/-- Why a document makes no table. -/
inductive Error where
  | tooLarge (size : Nat)
  | unreadable (fault : Fault)
  /-- The document is not JSON. -/
  | malformed
  /-- There is no list of entries. -/
  | missingTypes
  /-- An entry, counted from zero, has no name. -/
  | missingName (index : Nat)
  /-- An entry has a name that no type has. -/
  | invalidName (index : Nat) (name : String)
  deriving DecidableEq, Repr

/-- How many bytes a document has at most. -/
def greatestSize : Nat := 8388608

/-- The wording of each cause. -/
def Error.message : Error → String
  | .tooLarge size => s!"{size} bytes exceeds the {greatestSize} byte cap"
  | .unreadable fault => fault.systemText
  | .malformed => "invalid JSON"
  | .missingTypes => "top level needs a \"types\" array"
  | .missingName index => s!"types[{index}] has no \"type\" string"
  | .invalidName index name => s!"types[{index}]: '{name}' is not category/subtype"

/-- How many bytes a name has at most. -/
def longestName : Nat := 255

/-- Whether a type may have a name: two parts that are not empty, with the only slash
between them, and neither white space nor control characters. -/
def isTypeName (name : String) : Bool :=
  name.utf8ByteSize ≤ longestName &&
    !name.toList.any (fun c => Text.isBlank c || Text.isControl c) &&
    match name.toList.splitOn '/' with
    | [category, subtype] => !category.isEmpty && !subtype.isEmpty
    | _ => false

/-- The row that an entry makes. -/
def row (index : Nat) (entry : Json) : Except Error TypeRow :=
  match (entry.member? "type").bind Json.string? with
  | none => .error (.missingName index)
  | some name =>
      if isTypeName name then
        .ok ⟨name, ((entry.member? "comment").bind Json.string?).getD ""⟩
      else .error (.invalidName index name)

/-- The rows that entries make, of which the first one has an index. -/
def rowsFrom (index : Nat) : List Json → Except Error (List TypeRow)
  | [] => .ok []
  | entry :: entries =>
      match row index entry with
      | .error e => .error e
      | .ok r => (rowsFrom (index + 1) entries).map (r :: ·)

/-- The table of a document. -/
def parse (text : String) : Except Error (List TypeRow) :=
  match Json.parseWhole? text with
  | none => .error .malformed
  | some document =>
      match (document.member? "types").bind Json.elements? with
      | none => .error .missingTypes
      | some entries => (rowsFrom 0 entries).map ofRows

/-- The table of a document that has been opened, or could not be. -/
def load (opened : Except Fault Stream) : Except Error (List TypeRow) :=
  match opened.bind Stream.readAll with
  | .error fault => .error (.unreadable fault)
  | .ok data =>
      if greatestSize < data.length then .error (.tooLarge data.length)
      else
        match Text.ofUtf8? data with
        | none => .error (.unreadable .notText)
        | some text => parse text

end MediaSniff.TypeTable
