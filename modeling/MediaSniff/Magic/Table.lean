/-
# MediaSniff.Magic.Table — classifying a document by its content

The signatures of a database stand in the order in which they are tried: higher
priority first, then fewer bytes on the cheapest way, then fewer tests, then the order
of the database. The first that matches decides. With none, a document that looks like
text is plain text, and any other is unknown; an empty one is empty whatever the rules.
-/
import MediaSniff.Magic.Signature
import MediaSniff.Sentinels

set_option autoImplicit false

namespace MediaSniff.Magic

/-- How many bytes are looked at to tell whether a document is text. -/
def textWindow : Nat := 128

/-- The byte-order marks of UTF-16 in both orders and of UTF-8. -/
def byteOrderMarks : List Bytes := [[0xFE, 0xFF], [0xFF, 0xFE], [0xEF, 0xBB, 0xBF]]

/-- Printable, a byte of a longer character, tab, newline or carriage return. -/
def isTextByte (b : UInt8) : Bool :=
  0x20 ≤ b || b == 0x09 || b == 0x0A || b == 0x0D

/-- Whether the first bytes of a document look like text. -/
def looksLikeText (data : Bytes) : Bool :=
  let head := data.take textWindow
  byteOrderMarks.any (·.isPrefixOf head) || head.all isTextByte

/-- Whether a signature is tried before another, or may be. -/
def triedBefore (a b : Signature) : Bool :=
  if a.priority ≠ b.priority then b.priority < a.priority
  else if a.leastPatternLength ≠ b.leastPatternLength then
    a.leastPatternLength < b.leastPatternLength
  else a.nodeCount ≤ b.nodeCount

/-- All content rules of a database, in the order in which they are tried. -/
structure Table where
  signatures : List Signature
  sentinels : Sentinels

namespace Table

def ofList (signatures : List Signature) (sentinels : Sentinels) : Table :=
  { signatures := signatures.mergeSort triedBefore, sentinels }

def size (t : Table) : Nat := t.signatures.length

def isEmpty (t : Table) : Bool := t.signatures.isEmpty

/-- How many leading bytes of a document the signatures can look at. -/
def longestExtent (t : Table) : Nat :=
  t.signatures.foldl (fun most s => max most s.extent) 0

/-- The types of all matching signatures, in the order in which they are tried. -/
def matching (t : Table) (data : Bytes) : List TypeId :=
  let document := data.toByteArray
  (t.signatures.filter (·.accepts document)).map (·.owner)

/-- Classify a document by its content. -/
def classify (t : Table) (data : Bytes) : TypeId :=
  if data.isEmpty then t.sentinels.empty
  else
    let document := data.toByteArray
    match t.signatures.find? (·.accepts document) with
    | some found => found.owner
    | none => if looksLikeText data then t.sentinels.text else t.sentinels.unknown

end Table

end MediaSniff.Magic
