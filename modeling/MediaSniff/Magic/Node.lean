/-
# MediaSniff.Magic.Node — one byte test

A compiled test looks for a pattern at a position, or at any of the `window` positions
after it. With a mask only the bits of the mask are compared. A string pattern has a
zero byte wherever its mask has one, so those bytes are wildcards; any other bit of a
pattern outside its mask can never be met.
-/
import MediaSniff.Descriptor
import MediaSniff.Magic.Value

set_option autoImplicit false

namespace MediaSniff.Magic

/-- A compiled byte test. -/
structure Node where
  start : Nat
  window : Nat
  pattern : Bytes
  mask : Option Bytes
  deriving DecidableEq, Repr

/-- Whether the bytes of a document from position `i` on agree with a pattern under a
mask. -/
def agreesUnder (document : ByteArray) : (mask pattern : Bytes) → (i : Nat) → Bool
  | m :: mask, p :: pattern, i =>
      match document[i]? with
      | none => false
      | some b => b &&& m == p && agreesUnder document mask pattern (i + 1)
  | _, _, _ => true

/-- Whether the bytes of a document from position `i` on are those of a pattern. The
first byte is compared on its own, since at most positions it already differs. -/
def agrees (document pattern : ByteArray) (i : Nat) : Bool :=
  match pattern[0]? with
  | none => true
  | some first =>
      document[i]? == some first && document.extract i (i + pattern.size) == pattern

namespace Node

/-- One past the last byte the test can look at. -/
def extent (n : Node) : Nat := n.start + n.window + n.pattern.length

/-- Whether what the test looks for begins at position `i` of a document. -/
def fitsAt (n : Node) (document pattern : ByteArray) (i : Nat) : Bool :=
  match n.mask with
  | none => agrees document pattern i
  | some mask => agreesUnder document mask n.pattern i

/-- Whether what the test looks for begins at position `i` of a document or at one of
the `further` positions after it. -/
def fitsWithin (n : Node) (document pattern : ByteArray) : (further i : Nat) → Bool
  | 0, i => n.fitsAt document pattern i
  | further + 1, i =>
      n.fitsAt document pattern i || n.fitsWithin document pattern further (i + 1)

/-- Whether a document passes the test. A position counts only if the whole pattern fits
in front of the end of the document. -/
def holds (n : Node) (document : ByteArray) : Bool :=
  let length := n.pattern.length
  n.start + length ≤ document.size &&
    n.fitsWithin document n.pattern.toByteArray
      (min n.window (document.size - length - n.start)) n.start

end Node

/-- A pattern with zeros where its mask has zeros. -/
def blankOut (pattern mask : Bytes) : Bytes :=
  List.zipWith (fun p m => if m = 0 then 0 else p) pattern mask

/-- Compile one byte test, without regard to the tests below it. The offset is read
first, then the value, then the mask. -/
def compileNode (rule : Descriptor.MatchRule) : Except Error Node := do
  let (start, window) ← parseOffset rule.offset
  match ValueKind.ofName? rule.kind with
  | none => throw (.unknownValueType rule.kind)
  | some kind =>
      let pattern ← kind.parseValue rule.value
      let mask ← rule.mask.mapM kind.parseMask
      if pattern.isEmpty then throw .emptyValue
      match mask with
      | none => return { start, window, pattern, mask := none }
      | some bits =>
          if bits.length ≠ pattern.length then throw (.maskLength pattern.length bits.length)
          let pattern := if kind = .string then blankOut pattern bits else pattern
          return { start, window, pattern, mask := some bits }

end MediaSniff.Magic
