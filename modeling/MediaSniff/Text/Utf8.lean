/-
# MediaSniff.Text.Utf8 — texts as bytes

Names and rules are texts; lengths, widths and matching work on their bytes. `utf8`
gives the bytes of a text, and `ofUtf8?` goes back if the bytes are those of a text.
`decodePrefix` goes back as far as a byte string is well formed: it stops at the first
byte that starts no character, so it never fails and never inserts a replacement
character.
-/
set_option autoImplicit false

namespace MediaSniff

/-- A byte string. -/
abbrev Bytes := List UInt8

namespace Text

/-- The bytes of a text. -/
def utf8 (s : String) : Bytes := s.toByteArray.data.toList

/-- The text with these bytes. -/
def ofUtf8? (bytes : Bytes) : Option String := String.fromUTF8? bytes.toByteArray

/-- The first character of a byte string, if the bytes start with a whole one. -/
def firstChar? (bytes : Bytes) : Option Char :=
  (List.toByteArray (bytes.take 4)).utf8DecodeChar? 0

/-- Decode at most `count` characters. -/
def decodeUpTo : (count : Nat) → Bytes → List Char
  | 0, _ => []
  | count + 1, bytes =>
      match firstChar? bytes with
      | none => []
      | some c => c :: decodeUpTo count (bytes.drop c.utf8Size)

/-- The characters of the longest well-formed beginning of a byte string. -/
def decodePrefix (bytes : Bytes) : List Char :=
  decodeUpTo bytes.length bytes

/-- The text of the longest well-formed beginning of a byte string. -/
def ofUtf8Prefix (bytes : Bytes) : String :=
  String.ofList (decodePrefix bytes)

end Text

end MediaSniff
