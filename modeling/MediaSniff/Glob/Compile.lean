/-
# MediaSniff.Glob.Compile — reading filename patterns

A pattern is a text in which a single `*` may stand first or last and in which square
brackets hold classes of single bytes. A rule that ignores case has its text lowercased
before anything else is looked at, so all positions and all quoted texts are those of
the lowercased pattern.

`scan` walks the bytes of a bracket pattern once, from the left; `bracketItems` reads
the content of one bracket expression. Both are structural, and the error reported is
that of the leftmost fault, an unclosed bracket counting at its opening.
-/
import MediaSniff.Glob.Error
import MediaSniff.Glob.Pattern
import MediaSniff.Text.Lowercase

set_option autoImplicit false

namespace MediaSniff.Glob

/-- The byte of `*`. -/
def star : UInt8 := 0x2A
/-- The byte of `[`. -/
def openBracket : UInt8 := 0x5B
/-- The byte of `]`. -/
def closeBracket : UInt8 := 0x5D
/-- The byte of `-`. -/
def dash : UInt8 := 0x2D

/-- The shape of a pattern without brackets. -/
def literalShape (text : String) : Except Error Shape :=
  let bytes := Text.utf8 text
  match bytes with
  | [] => .ok (.exact [])
  | b :: rest =>
      if !bytes.contains star then .ok (.exact bytes)
      else if b = star && !rest.isEmpty && !rest.contains star then .ok (.trailing rest)
      else if b ≠ star && bytes.getLast? = some star && !bytes.dropLast.contains star then
        .ok (.leading bytes.dropLast)
      else .error (.unsupportedWildcard text)

/-- The content of a bracket expression read from the left: single bytes, and ranges
written as two bytes with a dash between them. The content is also the text that the
errors quote. -/
def bracketItems (content : Bytes) : Bytes → Except Error (Bytes × List Item)
  | [] => .ok ([], [])
  | b :: d :: hi :: rest =>
      if b = dash then .error (.misplacedDash (Text.ofUtf8Prefix content))
      else if d = dash then
        if hi = dash then .error (.misplacedDash (Text.ofUtf8Prefix content))
        else if hi < b then .error (.backwardsRange (Text.ofUtf8Prefix content))
        else do
          let (members, ranges) ← bracketItems content rest
          .ok (members, .range b hi :: ranges)
      else do
        let (members, ranges) ← bracketItems content (d :: hi :: rest)
        .ok (b :: members, ranges)
  | b :: rest =>
      if b = dash then .error (.misplacedDash (Text.ofUtf8Prefix content))
      else do
        let (members, ranges) ← bracketItems content rest
        .ok (b :: members, ranges)

/-- The segment of a bracket expression: a plain list of bytes, a single range, or the
listed bytes together followed by the ranges. -/
def bracketSegment (text : String) (content : Bytes) : Except Error Segment :=
  if content.isEmpty then .error (.emptyBracket text)
  else if !content.contains dash then .ok (.one (.set content))
  else
    let mixed := do
      let (members, ranges) ← bracketItems content content
      .ok (.anyOf (if members.isEmpty then ranges else .set members :: ranges))
    match content with
    | [lo, d, hi] => if d = dash && lo < hi then .ok (.one (.range lo hi)) else mixed
    | _ => mixed

/-- A literal run, read in reverse, in front of further segments. -/
def flushRun (run : Bytes) (segments : List Segment) : List Segment :=
  if run.isEmpty then segments else .literal run.reverse :: segments

/-- The segments of a pattern's bytes. `run` is the literal run read so far, and
`content` the content read so far of an open bracket expression, both reversed. -/
def scan (text : String) : Bytes → (run : Bytes) → (content : Option Bytes) →
    Except Error (List Segment)
  | [], run, none => .ok (flushRun run [])
  | [], _, some _ => .error (.unbalancedBrackets text)
  | b :: rest, run, none =>
      if b = openBracket then scan text rest run (some [])
      else if b = closeBracket then .error (.unbalancedBrackets text)
      else scan text rest (b :: run) none
  | b :: rest, run, some content =>
      if b = openBracket then .error (.unbalancedBrackets text)
      else if b = closeBracket then do
        let segment ← bracketSegment text content.reverse
        let segments ← scan text rest [] none
        .ok (flushRun run (segment :: segments))
      else scan text rest run (some (b :: content))

/-- The anchor of a bracket pattern and its bytes without the star that names it. -/
def anchorOf (bytes : Bytes) : Anchor × Bytes :=
  match bytes with
  | [] => (.whole, [])
  | b :: rest =>
      if b = star then (.trailing, rest)
      else if bytes.getLast? = some star then (.leading, bytes.dropLast)
      else (.whole, bytes)

/-- A pattern with brackets. -/
def bracketPattern (text : String) : Except Error Pattern :=
  let (anchor, body) := anchorOf (Text.utf8 text)
  if body.contains star then .error (.unsupportedWildcard text)
  else do
    let segments ← scan text body [] none
    .ok { anchor, segments }

/-- The shape of a pattern's text. -/
def shapeOf (text : String) : Except Error Shape :=
  let bytes := Text.utf8 text
  if bytes.contains openBracket || bytes.contains closeBracket then
    (bracketPattern text).map .pattern
  else literalShape text

/-- Compile a filename rule. The weight is looked at first, then whether there is a
pattern at all. -/
def compile (pattern : String) (caseSensitive : Bool) (weight : Nat) (owner : TypeId) :
    Except Error Glob :=
  if weight < 1 || 100 < weight then .error (.weightOutOfRange weight)
  else if pattern.isEmpty then .error .empty
  else do
    let shape ← shapeOf (if caseSensitive then pattern else Text.lowercase pattern)
    .ok { shape, caseSensitive, weight, owner }

end MediaSniff.Glob
