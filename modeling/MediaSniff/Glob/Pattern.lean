/-
# MediaSniff.Glob.Pattern — compiled filename patterns and what they accept

A compiled pattern has one of four shapes. Three are literal: the whole name, its
beginning or its end. The fourth is a sequence of segments of fixed width, each a
literal run or a class of single bytes, laid against the whole name, its beginning or
its end. Matching works on bytes and consumes the subject from the left, so it never
looks outside it.
-/
import MediaSniff.TypeId
import MediaSniff.Text.Utf8

set_option autoImplicit false

namespace MediaSniff

namespace Glob

/-- One item of a bracket expression: bytes listed one by one, or an inclusive range. -/
inductive Item where
  | set (members : Bytes)
  | range (lo hi : UInt8)
  deriving DecidableEq, Repr

/-- Whether an item contains a byte. -/
def Item.contains : Item → UInt8 → Bool
  | .set members, b => List.contains members b
  | .range lo hi, b => lo ≤ b && b ≤ hi

/-- A piece of a pattern with a fixed width. -/
inductive Segment where
  /-- A run of bytes that stand for themselves. -/
  | literal (run : Bytes)
  /-- One byte out of a single item. -/
  | one (item : Item)
  /-- One byte out of any of several items. -/
  | anyOf (items : List Item)
  deriving DecidableEq, Repr

/-- How many bytes a segment takes. -/
def Segment.width : Segment → Nat
  | .literal run => run.length
  | .one _ => 1
  | .anyOf _ => 1

/-- What is left of a subject after a run of bytes at its beginning. -/
def dropRun? : (run subject : Bytes) → Option Bytes
  | [], subject => some subject
  | _ :: _, [] => none
  | r :: run, b :: subject => if r = b then dropRun? run subject else none

/-- What is left of a subject after the bytes a segment takes. -/
def Segment.consume? : Segment → Bytes → Option Bytes
  | .literal run, subject => dropRun? run subject
  | .one _, [] => none
  | .one item, b :: subject => if item.contains b then some subject else none
  | .anyOf _, [] => none
  | .anyOf items, b :: subject =>
      if items.any (·.contains b) then some subject else none

/-- The part of the name that a segmented pattern is laid against. -/
inductive Anchor where
  | whole
  | leading
  | trailing
  deriving DecidableEq, Repr

/-- A pattern with bracket expressions. -/
structure Pattern where
  anchor : Anchor
  segments : List Segment
  deriving DecidableEq, Repr

namespace Pattern

/-- How many bytes segments take together. -/
def segmentsWidth : List Segment → Nat
  | [] => 0
  | s :: segments => s.width + segmentsWidth segments

/-- How many bytes of the name the pattern pins down. -/
def width (p : Pattern) : Nat := segmentsWidth p.segments

/-- Whether a subject begins with bytes that the segments take one after another. -/
def segmentsAccept : List Segment → Bytes → Bool
  | [], _ => true
  | s :: segments, subject =>
      match s.consume? subject with
      | none => false
      | some rest => segmentsAccept segments rest

/-- Whether the pattern accepts a subject. -/
def accepts (p : Pattern) (subject : Bytes) : Bool :=
  match p.anchor with
  | .whole => subject.length == p.width && segmentsAccept p.segments subject
  | .leading => segmentsAccept p.segments subject
  | .trailing =>
      p.width ≤ subject.length &&
        segmentsAccept p.segments (subject.drop (subject.length - p.width))

end Pattern

/-- The four shapes of a compiled pattern. -/
inductive Shape where
  /-- The whole name. -/
  | exact (text : Bytes)
  /-- Any name that begins with the text. -/
  | leading (text : Bytes)
  /-- Any name that ends with the text. -/
  | trailing (text : Bytes)
  /-- A pattern with bracket expressions. -/
  | pattern (p : Pattern)
  deriving DecidableEq, Repr

/-- How many bytes of the name a shape pins down. -/
def Shape.fixedLength : Shape → Nat
  | .exact text => text.length
  | .leading text => text.length
  | .trailing text => text.length
  | .pattern p => p.width

/-- Whether a shape accepts a subject. -/
def Shape.accepts : Shape → Bytes → Bool
  | .exact text, subject => subject == text
  | .leading text, subject => text.isPrefixOf subject
  | .trailing text, subject => text.isSuffixOf subject
  | .pattern p, subject => p.accepts subject

end Glob

/-- A compiled filename rule: its shape, the case it is tested in, its weight, and the
type that a name it accepts speaks for. -/
structure Glob where
  shape : Glob.Shape
  caseSensitive : Bool
  weight : Nat
  owner : TypeId
  deriving DecidableEq, Repr

namespace Glob

/-- How many bytes of the name the rule pins down. -/
def fixedLength (g : Glob) : Nat := g.shape.fixedLength

/-- Whether the rule accepts a subject that is already in the case the rule expects. -/
def accepts (g : Glob) (subject : Bytes) : Bool := g.shape.accepts subject

end Glob

end MediaSniff
