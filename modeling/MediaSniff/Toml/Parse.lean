/-
# MediaSniff.Toml.Parse — reading a document

A document is a sequence of lines: headers that open a table, entries that add to the
table opened last, and blank lines. No key may be given twice, and what is written out
in one place cannot be added to in another.
-/
import MediaSniff.Toml.Token
import MediaSniff.Toml.Value

set_option autoImplicit false

namespace MediaSniff.Toml

/-- The items behind those already read, which stand in reverse, each behind a separator,
and what follows. A separator behind which no item stands is left. -/
def further {α : Type} (separator : Char) (item? : List Char → Option (α × List Char))
    (read : List α) : (bound : Nat) → List Char → List α × List Char
  | bound + 1, c :: cs =>
      if c = separator then
        match item? cs with
        | some (a, rest) => further separator item? (a :: read) bound rest
        | none => (read.reverse, c :: cs)
      else (read.reverse, c :: cs)
  | _, cs => (read.reverse, cs)

/-- As many items as there are, with a separator between any two of them, and what
follows. There are at most `bound` separators. -/
def separated {α : Type} (bound : Nat) (separator : Char)
    (item? : List Char → Option (α × List Char)) (cs : List Char) : List α × List Char :=
  match item? cs with
  | some (a, rest) => further separator item? [a] bound rest
  | none => ([], cs)

/-- How many parts a key has at most, and how deeply arrays and tables may be nested. -/
def greatestDepth : Nat := 79

/-- A key of several parts with points between them: the parts in front of the last one,
and the last one. -/
def key? (cs : List Char) : Option ((List String × String) × List Char) :=
  let part? (cs : List Char) : Option (String × List Char) :=
    (simpleKey? (skipSpaces cs)).map fun r => (r.1, skipSpaces r.2)
  let (parts, rest) := separated greatestDepth '.' part? cs
  if greatestDepth < parts.length then none
  else parts.getLast?.map fun last => ((parts.dropLast, last), rest)

/-- A key and its value, with an equals sign between them. -/
def binding? (value? : List Char → Option (Toml × List Char)) (cs : List Char) :
    Option ((List String × String × Toml) × List Char) :=
  match key? cs with
  | some ((path, key), '=' :: rest) =>
      (value? (skipSpaces rest)).map fun r => ((path, key, r.1), r.2)
  | _ => none

/-- A text or an integer. -/
def scalarValue? (cs : List Char) : Option (Toml × List Char) :=
  match text? cs with
  | some (s, rest) => some (.text s, rest)
  | none => (integer? cs).map fun r => (.integer r.1, r.2)

/-- A value, in which arrays and tables may be nested as many levels as are left, with no
more than `bound` elements in any of them. -/
def value? (bound : Nat) : (levels : Nat) → List Char → Option (Toml × List Char)
  | levels + 1, '[' :: cs =>
      let element? (cs : List Char) : Option (Toml × List Char) :=
        (value? bound levels (skipLines false cs)).map fun r => (r.1, skipLines false r.2)
      let (elements, rest) := separated bound ',' element? cs
      let rest := match elements, rest with
        | _ :: _, ',' :: rest => rest
        | _, rest => rest
      match skipLines false rest with
      | ']' :: rest => some (.array elements, rest)
      | _ => none
  | levels + 1, '\x7b' :: cs =>
      let member? (cs : List Char) : Option ((List String × String × Toml) × List Char) :=
        (binding? (value? bound levels) cs).map fun r => (r.1, skipSpaces r.2)
      let (bindings, rest) := separated bound ',' member? cs
      match skipSpaces rest with
      | '\x7d' :: rest =>
          (bindings.foldlM (fun entries b => Entries.addDotted? b.1 b.2.1 b.2.2 entries) []).map
            fun entries => (.table .inline entries, rest)
      | _ => none
  | _, cs => scalarValue? cs

/-- What a line says. -/
inductive Line where
  | blank
  /-- The header of a table. -/
  | table (path : List String) (key : String)
  /-- The header of one more table of an array. -/
  | element (path : List String) (key : String)
  | entry (path : List String) (key : String) (v : Toml)
  deriving Repr

/-- A line from its first word on, in a document of `bound` characters. -/
def line? (bound : Nat) : List Char → Option (Line × List Char)
  | '[' :: '[' :: cs =>
      match key? cs with
      | some ((path, key), ']' :: ']' :: rest) =>
          (endLine? rest).map fun rest => (.element path key, rest)
      | _ => none
  | '[' :: cs =>
      match key? cs with
      | some ((path, key), ']' :: rest) => (endLine? rest).map fun rest => (.table path key, rest)
      | _ => none
  | cs =>
      match endLine? cs with
      | some rest => some (.blank, rest)
      | none => do
          let ((path, key, v), rest) ← binding? (value? bound greatestDepth) cs
          some (.entry path key v, ← endLine? rest)

/-- What has been read: the path of the table opened last, and all entries. -/
structure Document where
  opened : List String := []
  entries : Entries := []

/-- Take in one more line. -/
def Document.add? (d : Document) : Line → Option Document
  | .blank => some d
  | .table path key =>
      (d.entries.openTable? path key).map fun entries => ⟨path ++ [key], entries⟩
  | .element path key =>
      (d.entries.openElement? path key).map fun entries => ⟨path ++ [key], entries⟩
  | .entry path key v =>
      (d.entries.alterOpen? d.opened (Entries.addDotted? path key v)).map fun entries =>
        { d with entries }

/-- Take in all lines that follow, of which there are at most `lines`. -/
def Document.addLines? (bound : Nat) : (lines : Nat) → Document → List Char → Option Document
  | _, d, [] => some d
  | 0, _, _ => none
  | lines + 1, d, cs =>
      match line? bound (skipSpaces cs) with
      | none => none
      | some (line, rest) =>
          match d.add? line with
          | some d => addLines? bound lines d rest
          | none => none

/-- The mark of byte order that may stand in front of a document. -/
def skipByteOrderMark : List Char → List Char
  | '\uFEFF' :: cs => cs
  | cs => cs

/-- The entries of a document. It has no more lines than characters, and no array has
more elements. -/
def parse? (text : String) : Option Entries :=
  let cs := skipByteOrderMark text.toList
  (Document.addLines? cs.length cs.length {} cs).map (·.entries)

end MediaSniff.Toml
