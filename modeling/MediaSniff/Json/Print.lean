/-
# MediaSniff.Json.Print — writing JSON

A value is written in two ways: without any white space, or on lines indented by two
spaces for each level, with empty arrays and objects on one line. In strings the quote,
the backslash and the control characters below space are escaped, and nothing else.
-/
import MediaSniff.Json.Value

set_option autoImplicit false

namespace MediaSniff.Json

/-- A digit of base sixteen. -/
def hexDigit (n : Nat) : Char := (Nat.toDigits 16 (n % 16)).headD '0'

/-- A character as it is written inside a string. -/
def escapeChar (c : Char) : List Char :=
  if c = '"' then ['\\', '"']
  else if c = '\\' then ['\\', '\\']
  else if c = '\x08' then ['\\', 'b']
  else if c = '\x0C' then ['\\', 'f']
  else if c = '\n' then ['\\', 'n']
  else if c = '\r' then ['\\', 'r']
  else if c = '\t' then ['\\', 't']
  else if c.toNat < 0x20 then ['\\', 'u', '0', '0', hexDigit (c.toNat / 16), hexDigit c.toNat]
  else [c]

/-- A string between quotes. One without a text is written as half of a surrogate
pair. -/
def quoted : Option String → List Char
  | some s => '"' :: s.toList.flatMap escapeChar ++ ['"']
  | none => ['"', '\\', 'u', 'd', '8', '0', '0', '"']

/-- A number by its parts. -/
def Number.chars (n : Number) : List Char :=
  (if n.negative then ['-'] else []) ++ n.whole ++
    (match n.fraction with
      | some digits => '.' :: digits
      | none => []) ++
    (match n.exponent with
      | some e => 'e' :: (if e.negative then ['-'] else []) ++ e.digits
      | none => [])

mutual

/-- A value without white space. -/
def compact : Json → List Char
  | .null => ['n', 'u', 'l', 'l']
  | .bool true => ['t', 'r', 'u', 'e']
  | .bool false => ['f', 'a', 'l', 's', 'e']
  | .number n => n.chars
  | .string text => quoted text
  | .array [] => ['[', ']']
  | .array (v :: vs) => '[' :: compact v ++ compactElements vs
  | .object [] => ['\x7b', '\x7d']
  | .object ((key, v) :: ms) => '\x7b' :: quoted key ++ ':' :: compact v ++ compactMembers ms

/-- The further elements of an array and its end. -/
def compactElements : List Json → List Char
  | [] => [']']
  | v :: vs => ',' :: compact v ++ compactElements vs

/-- The further members of an object and its end. -/
def compactMembers : List (Option String × Json) → List Char
  | [] => ['\x7d']
  | (key, v) :: ms => ',' :: quoted key ++ ':' :: compact v ++ compactMembers ms

end

/-- A new line at a level. -/
def newline (level : Nat) : List Char := '\n' :: List.replicate (2 * level) ' '

mutual

/-- A value on indented lines, itself at a level. -/
def pretty (level : Nat) : Json → List Char
  | .null => ['n', 'u', 'l', 'l']
  | .bool true => ['t', 'r', 'u', 'e']
  | .bool false => ['f', 'a', 'l', 's', 'e']
  | .number n => n.chars
  | .string text => quoted text
  | .array [] => ['[', ']']
  | .array (v :: vs) =>
      '[' :: newline (level + 1) ++ pretty (level + 1) v ++ prettyElements level vs
  | .object [] => ['\x7b', '\x7d']
  | .object ((key, v) :: ms) =>
      '\x7b' :: newline (level + 1) ++ quoted key ++ ':' :: ' ' :: pretty (level + 1) v ++
        prettyMembers level ms

/-- The further elements of an array at a level and its end. -/
def prettyElements (level : Nat) : List Json → List Char
  | [] => newline level ++ [']']
  | v :: vs => ',' :: newline (level + 1) ++ pretty (level + 1) v ++ prettyElements level vs

/-- The further members of an object at a level and its end. -/
def prettyMembers (level : Nat) : List (Option String × Json) → List Char
  | [] => newline level ++ ['\x7d']
  | (key, v) :: ms =>
      ',' :: newline (level + 1) ++ quoted key ++ ':' :: ' ' :: pretty (level + 1) v ++
        prettyMembers level ms

end

/-- The text of a value without white space. -/
def render (v : Json) : String := String.ofList (compact v)

/-- The text of a value on indented lines. -/
def renderPretty (v : Json) : String := String.ofList (pretty 0 v)

end MediaSniff.Json
