/-
# MediaSniff.Xml.Decoding — the text of a document's beginning

Only the first `scanLimit` bytes of a document are looked at. A byte-order mark tells
UTF-16 and its byte order; without one, or behind the mark of UTF-8, the bytes are
UTF-8. The text ends at the first thing that is not well formed or is cut off, and at
the first control character other than tab, newline and carriage return.
-/
import MediaSniff.Text.Blank
import MediaSniff.Text.Utf8

set_option autoImplicit false

namespace MediaSniff.Xml

/-- How many bytes of a document are looked at. -/
def scanLimit : Nat := 1024

/-- Pairs of bytes as 16-bit units, the more significant byte first; a single byte at
the end is no unit. -/
def unitsBigEndian : Bytes → List Nat
  | hi :: lo :: rest => (hi.toNat * 256 + lo.toNat) :: unitsBigEndian rest
  | _ => []

/-- Pairs of bytes as 16-bit units, the less significant byte first. -/
def unitsLittleEndian : Bytes → List Nat
  | lo :: hi :: rest => (hi.toNat * 256 + lo.toNat) :: unitsLittleEndian rest
  | _ => []

/-- The characters of the longest well-formed beginning of a UTF-16 text. -/
def decodeUnits : List Nat → List Char
  | [] => []
  | u :: units =>
      if u < 0xD800 || 0xE000 ≤ u then Char.ofNat u :: decodeUnits units
      else if 0xDC00 ≤ u then []
      else match units with
        | [] => []
        | v :: rest =>
            if 0xDC00 ≤ v && v < 0xE000 then
              Char.ofNat (0x10000 + (u - 0xD800) * 0x400 + (v - 0xDC00)) :: decodeUnits rest
            else []

/-- The characters of a document's beginning as its encoding gives them. -/
def decodeMarked : Bytes → List Char
  | 0xEF :: 0xBB :: 0xBF :: rest => Text.decodePrefix rest
  | 0xFE :: 0xFF :: rest => decodeUnits (unitsBigEndian rest)
  | 0xFF :: 0xFE :: rest => decodeUnits (unitsLittleEndian rest)
  | bytes => Text.decodePrefix bytes

/-- Whether a character may stand in the text of a document. -/
def isPlain (c : Char) : Bool :=
  !Text.isControl c || c == '\t' || c == '\n' || c == '\r'

/-- The text of a document's beginning. -/
def decode (data : Bytes) : List Char :=
  (decodeMarked (data.take scanLimit)).takeWhile isPlain

end MediaSniff.Xml
