/-
# MediaSniff.Glob.Index — finding the rules that accept a name

An `Index` keeps the literal rules of a database in tables keyed by their text, one
table for each shape and each treatment of case, and the bracket patterns in a list. A
name is looked up by its whole text, then by its ends and beginnings of the lengths that
some rule asks for, longest first, and is then tried on each bracket pattern.

What comes out is the list of all accepting rules by falling weight. Rules of equal
weight keep the order of that walk; inside one bucket they keep the order of
`bucketOrder`: heavier, longer, case-sensitive, earlier type.
-/
import MediaSniff.Glob.Pattern
import MediaSniff.Grouping
import MediaSniff.Text.Lowercase
import Std.Data.HashMap

set_option autoImplicit false

namespace MediaSniff.Glob

/-- A type that a name speaks for, and how strongly. -/
structure Candidate where
  weight : Nat
  type : TypeId
  deriving DecidableEq, Repr

/-- What a rule says of a name that it accepts. -/
def candidate (g : Glob) : Candidate := ⟨g.weight, g.owner⟩

/-- Whether one rule stands before or level with another inside a bucket. -/
def bucketOrder (a b : Glob) : Bool :=
  if a.weight ≠ b.weight then b.weight < a.weight
  else if a.fixedLength ≠ b.fixedLength then b.fixedLength < a.fixedLength
  else if a.caseSensitive ≠ b.caseSensitive then a.caseSensitive
  else a.owner.index ≤ b.owner.index

/-- Candidates by the literal text of their rule. -/
abbrev Table := Std.HashMap Bytes (List Candidate)

/-- The candidates filed under a text. -/
def Table.find (t : Table) (text : Bytes) : List Candidate := t.getD text []

/-- The candidates of rules by the text that a part of their shape asks for. Under one
text they keep the order of the rules. -/
def Table.ofList (text? : Shape → Option Bytes) (globs : List Glob) : Table :=
  globs.foldr (fun g t =>
    match text? g.shape with
    | none => t
    | some text => t.insert text (g.candidate :: t.find text)) ∅

/-- How many candidates a table holds. -/
def Table.count (t : Table) : Nat := t.toList.foldl (fun n entry => n + entry.2.length) 0

/-- The name that a shape asks for. -/
def Shape.exactText? : Shape → Option Bytes
  | .exact text => some text
  | _ => none

/-- The beginning that a shape asks for. -/
def Shape.leadingText? : Shape → Option Bytes
  | .leading text => some text
  | _ => none

/-- The end that a shape asks for. -/
def Shape.trailingText? : Shape → Option Bytes
  | .trailing text => some text
  | _ => none

/-- How long a beginning or an end a shape asks for. -/
def Shape.affixLength? : Shape → Option Nat
  | .leading text => some text.length
  | .trailing text => some text.length
  | _ => none

/-- Whether a shape is a pattern with bracket expressions. -/
def Shape.isPattern : Shape → Bool
  | .pattern _ => true
  | _ => false

/-- The tables of the literal rules that treat case alike. -/
structure Tables where
  exact : Table
  leading : Table
  trailing : Table

/-- File the literal ones among rules. -/
def Tables.ofList (globs : List Glob) : Tables where
  exact := .ofList Shape.exactText? globs
  leading := .ofList Shape.leadingText? globs
  trailing := .ofList Shape.trailingText? globs

/-- How many candidates the three tables hold. -/
def Tables.count (t : Tables) : Nat := t.exact.count + t.leading.count + t.trailing.count

/-- The candidates filed under the end and the beginning of one length. -/
def Tables.affixes (t : Tables) (name : Bytes) (length : Nat) : List Candidate :=
  if length ≤ name.length then
    t.trailing.find (name.drop (name.length - length)) ++ t.leading.find (name.take length)
  else []

/-- All filename rules of a database, ready for lookup. -/
structure Index where
  sensitive : Tables
  insensitive : Tables
  /-- The lengths of the beginnings and ends that literal rules ask for, longest first. -/
  affixLengths : List Nat
  /-- The rules with bracket expressions, in bucket order. -/
  patterns : List Glob
  /-- The answer for a name that no rule accepts. -/
  unknown : TypeId

namespace Index

/-- Index a list of rules. -/
def ofList (globs : List Glob) (unknown : TypeId) : Index :=
  let ordered := globs.mergeSort bucketOrder
  { sensitive := .ofList (ordered.filter (·.caseSensitive))
    insensitive := .ofList (ordered.filter (!·.caseSensitive))
    affixLengths :=
      (distinct (globs.filterMap (·.shape.affixLength?))).mergeSort fun a b => b ≤ a
    patterns := ordered.filter (·.shape.isPattern)
    unknown }

/-- The longest beginning or end that a literal rule asks for. -/
def longestAffix (ix : Index) : Nat := ix.affixLengths.headD 0

/-- How many rules the index holds. -/
def size (ix : Index) : Nat :=
  ix.sensitive.count + ix.insensitive.count + ix.patterns.length

/-- Whether the index holds no rule. -/
def isEmpty (ix : Index) : Bool := ix.size == 0

/-- The candidates filed under the ends and beginnings of one length of the name, as
written and lowercased. -/
def affixesOf (ix : Index) (name lowered : Bytes) (length : Nat) : List Candidate :=
  ix.sensitive.affixes name length ++ ix.insensitive.affixes lowered length

/-- The candidates of all accepting rules in the order of the walk. -/
def collect (ix : Index) (name lowered : Bytes) : List Candidate :=
  ix.sensitive.exact.find name ++ ix.insensitive.exact.find lowered ++
    ix.affixLengths.flatMap (ix.affixesOf name lowered) ++
    (ix.patterns.filter fun g => g.accepts (if g.caseSensitive then name else lowered)).map
      candidate

/-- All candidates for a name, best first. With no accepting rule the unknown type
stands alone, with weight zero. -/
def candidates (ix : Index) (name : String) : List Candidate :=
  match ix.collect (Text.utf8 name) (Text.utf8 (Text.lowercase name)) with
  | [] => [⟨0, ix.unknown⟩]
  | found => found.mergeSort fun a b => b.weight ≤ a.weight

/-- The best candidate for a name. -/
def best (ix : Index) (name : String) : TypeId :=
  match ix.candidates name with
  | [] => ix.unknown
  | c :: _ => c.type

end Index

end MediaSniff.Glob
