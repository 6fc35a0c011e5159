/-
# MediaSniff.Magic.Value — offsets, values and masks

The three texts of a byte test. An offset is a first position, or a first and a last
one with a colon between them. A value is a string or an integer of a fixed width and
byte order, as its kind says; a mask has the kind of its value, except that the mask of
a string is written in hexadecimal.

Integers in host order are stored least significant byte first.
-/
import MediaSniff.Magic.Error
import MediaSniff.Magic.Escape

set_option autoImplicit false

namespace MediaSniff.Magic

/-- The greatest offset, 2³¹ - 1. -/
def greatestOffset : Nat := Nat.pow 2 31 - 1

/-- One position of an offset. -/
def position? (cs : List Char) : Option Nat :=
  (Text.unsigned32? 10 cs).filter (· ≤ greatestOffset)

/-- The first position of an offset and how many positions may follow it. -/
def offset? (text : String) : Option (Nat × Nat) :=
  let cs := text.toList
  match cs.dropWhile (· ≠ ':') with
  | [] => do some (← position? cs, 0)
  | _ :: last => do
      let start ← position? (cs.takeWhile (· ≠ ':'))
      let stop ← position? last
      if stop < start then none else some (start, stop - start)

def parseOffset (text : String) : Except Error (Nat × Nat) :=
  (offset? text).elim (.error (.invalidOffset text)) .ok

/-- The bytes of a string value. -/
def parseString (text : String) : Except Error Bytes :=
  (unescape? (Text.utf8 text)).elim (.error (.invalidEscape text)) .ok

/-- Pairs of hexadecimal digits as bytes. -/
def hexPairs? : List Char → Option Bytes
  | [] => some []
  | [_] => none
  | hi :: lo :: rest => do
      let byte := (← Text.digit? 16 hi) * 16 + (← Text.digit? 16 lo)
      some (UInt8.ofNat byte :: (← hexPairs? rest))

/-- The bytes of a string mask: hexadecimal digits behind `0x`, an odd number of them
being filled up with a zero in front. -/
def stringMask? (text : String) : Option Bytes :=
  match text.toList with
  | '0' :: x :: digits =>
      if (x = 'x' || x = 'X') && !digits.isEmpty then
        hexPairs? (if digits.length % 2 = 1 then '0' :: digits else digits)
      else none
  | _ => none

def parseStringMask (text : String) : Except Error Bytes :=
  (stringMask? text).elim (.error (.invalidMask text)) .ok

/-- The order in which the bytes of an integer are stored. -/
inductive ByteOrder where
  | bigEndian
  | littleEndian
  deriving DecidableEq, Repr

/-- The lowest `width` bytes of a number, least significant first. -/
def lowBytes : (width n : Nat) → Bytes
  | 0, _ => []
  | width + 1, n => UInt8.ofNat (n % 256) :: lowBytes width (n / 256)

/-- The bytes of a number in an order. -/
def ByteOrder.store (order : ByteOrder) (width n : Nat) : Bytes :=
  match order with
  | .bigEndian => (lowBytes width n).reverse
  | .littleEndian => lowBytes width n

/-- The base of an integer and its digits: `0x` and `0X` announce hexadecimal, `0o` and
`0O` octal, `0b` and `0B` binary; another `0` with more behind it announces octal too;
all else is decimal. -/
def splitBase : List Char → Nat × List Char
  | '0' :: c :: cs =>
      if c = 'x' || c = 'X' then (16, cs)
      else if c = 'o' || c = 'O' then (8, cs)
      else if c = 'b' || c = 'B' then (2, cs)
      else (8, c :: cs)
  | cs => (10, cs)

/-- An unsigned integer of `width` bytes. -/
def parseInteger (width : Nat) (order : ByteOrder) (text : String) : Except Error Bytes :=
  let (base, digits) := splitBase text.toList
  match Text.natural? base (Nat.pow 256 width) digits with
  | none => .error (.invalidInteger text width)
  | some n => .ok (order.store width n)

/-- The kinds of values. -/
inductive ValueKind where
  | string
  | integer (width : Nat) (order : ByteOrder)
  deriving DecidableEq, Repr

namespace ValueKind

/-- The kind of a name. -/
def ofName? : String → Option ValueKind
  | "string" => some .string
  | "byte" => some (.integer 1 .bigEndian)
  | "big16" => some (.integer 2 .bigEndian)
  | "host16" => some (.integer 2 .littleEndian)
  | "little16" => some (.integer 2 .littleEndian)
  | "big32" => some (.integer 4 .bigEndian)
  | "host32" => some (.integer 4 .littleEndian)
  | "little32" => some (.integer 4 .littleEndian)
  | _ => none

def parseValue : ValueKind → String → Except Error Bytes
  | .string => parseString
  | .integer width order => parseInteger width order

def parseMask : ValueKind → String → Except Error Bytes
  | .string => parseStringMask
  | .integer width order => parseInteger width order

end ValueKind

end MediaSniff.Magic
