/-
# MediaSniff.Magic.Escape — string values

A string value is text in which a backslash starts an escape: one of a few letters and
marks, one to three octal digits, or `x` with one or two hexadecimal digits. Numeric
escapes take as many digits as they may; an octal escape stops before its value would
pass 255. Every other byte stands for itself.

`token?` reads one of these off the front, and what it leaves is shorter.
-/
import MediaSniff.Text.Utf8
import MediaSniff.Text.Numeral

set_option autoImplicit false

namespace MediaSniff.Magic

/-- The byte of a backslash. -/
def backslash : UInt8 := 0x5C

/-- The value of an escape of one letter or mark. -/
def simpleEscape? (mark : UInt8) : Option UInt8 :=
  match Char.ofNat mark.toNat with
  | 'a' => some 0x07
  | 'b' => some 0x08
  | 'f' => some 0x0C
  | 'n' => some 0x0A
  | 'r' => some 0x0D
  | 't' => some 0x09
  | 'v' => some 0x0B
  | '\\' => some mark
  | '\x27' => some mark
  | '"' => some mark
  | ' ' => some mark
  | _ => none

/-- The value of a byte as a digit. -/
def byteDigit? (base : Nat) (b : UInt8) : Option Nat :=
  Text.digit? base (Char.ofNat b.toNat)

/-- Read at most `count` further digits while the value stays a byte. -/
def digitRun (base : Nat) : (count value : Nat) → Bytes → Nat × Bytes
  | 0, value, bytes => (value, bytes)
  | _ + 1, value, [] => (value, [])
  | count + 1, value, b :: bytes =>
      match byteDigit? base b with
      | none => (value, b :: bytes)
      | some d =>
          if value * base + d ≤ 255 then digitRun base count (value * base + d) bytes
          else (value, b :: bytes)

/-- The byte that the front of a value stands for, and what follows. -/
def token? : Bytes → Option (UInt8 × Bytes)
  | [] => none
  | b :: bytes =>
      if b ≠ backslash then some (b, bytes)
      else match bytes with
        | [] => none
        | mark :: rest =>
            match simpleEscape? mark with
            | some value => some (value, rest)
            | none =>
                match byteDigit? 8 mark with
                | some d =>
                    let (value, rest) := digitRun 8 2 d rest
                    some (UInt8.ofNat value, rest)
                | none =>
                    if mark = 'x'.toUInt8 then
                      match rest with
                      | [] => none
                      | b :: rest => do
                          let d ← byteDigit? 16 b
                          let (value, rest) := digitRun 16 1 d rest
                          some (UInt8.ofNat value, rest)
                    else none

/-- Decode at most `count` tokens, which must use up the whole text. -/
def unescapeUpTo : (count : Nat) → Bytes → Option Bytes
  | _, [] => some []
  | 0, _ :: _ => none
  | count + 1, bytes => do
      let (b, rest) ← token? bytes
      let decoded ← unescapeUpTo count rest
      some (b :: decoded)

/-- The bytes that a string value stands for. -/
def unescape? (bytes : Bytes) : Option Bytes :=
  unescapeUpTo bytes.length bytes

end MediaSniff.Magic
