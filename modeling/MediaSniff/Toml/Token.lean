/-
# MediaSniff.Toml.Token — the words of TOML

Between words there may be spaces and tabs, and a comment may end a line. Texts stand
between quotes or apostrophes, one of them on a line of its own or three around several
lines. Between quotes a backslash starts an escape; between apostrophes it is a
character like any other. A reader gives what it has read and what follows.
-/
import MediaSniff.Text.Numeral

set_option autoImplicit false

namespace MediaSniff.Toml

/-! ## White space and comments -/

/-- White space inside a line. -/
def isSpace (c : Char) : Bool := c == ' ' || c == '\t'

/-- A character that comments and texts may hold: no control character but the tab. -/
def isPlain (c : Char) : Bool := c == '\t' || (0x20 ≤ c.toNat && c.toNat ≠ 0x7F)

/-- What follows white space. -/
def skipSpaces (cs : List Char) : List Char := cs.dropWhile isSpace

/-- What follows a line end. -/
def newline? : List Char → Option (List Char)
  | '\n' :: cs => some cs
  | '\r' :: '\n' :: cs => some cs
  | _ => none

/-- What follows a comment, if there is one. -/
def skipComment : List Char → List Char
  | '#' :: cs => cs.dropWhile isPlain
  | cs => cs

/-- What follows the end of a line on which no word is left. -/
def endLine? (cs : List Char) : Option (List Char) :=
  match skipComment (skipSpaces cs) with
  | [] => some []
  | cs => newline? cs

/-- What follows any white space, line ends and comments. -/
def skipLines (inComment : Bool) : List Char → List Char
  | [] => []
  | '\n' :: cs => skipLines false cs
  | '\r' :: '\n' :: cs => skipLines false cs
  | c :: cs =>
      if (inComment && isPlain c) || isSpace c then skipLines inComment cs
      else if c = '#' then skipLines true cs
      else c :: cs

/-! ## Texts -/

/-- The character with a number, given by hexadecimal digits. -/
def scalar? (digits : List Char) : Option Char :=
  (Text.natural? 16 0x110000 digits).bind fun n =>
    if n.isValidChar then some (Char.ofNat n) else none

/-- The character of an escape of one letter or mark. -/
def shortEscape? : Char → Option Char
  | 'b' => some '\x08'
  | 't' => some '\t'
  | 'n' => some '\n'
  | 'f' => some '\x0C'
  | 'r' => some '\r'
  | '"' => some '"'
  | '\\' => some '\\'
  | _ => none

/-- A text on one line from behind its quote, in front of the characters already read,
which stand in reverse. -/
def quoted? (read : List Char) : List Char → Option (String × List Char)
  | [] => none
  | '"' :: cs => some (String.ofList read.reverse, cs)
  | '\\' :: 'u' :: a :: b :: c :: d :: cs =>
      match scalar? [a, b, c, d] with
      | some x => quoted? (x :: read) cs
      | none => none
  | '\\' :: 'U' :: a :: b :: c :: d :: e :: f :: g :: h :: cs =>
      match scalar? [a, b, c, d, e, f, g, h] with
      | some x => quoted? (x :: read) cs
      | none => none
  | '\\' :: mark :: cs =>
      match shortEscape? mark with
      | some x => quoted? (x :: read) cs
      | none => none
  | c :: cs => if isPlain c && c ≠ '\\' then quoted? (c :: read) cs else none

/-- A text on one line from behind its apostrophe. -/
def literal? (cs : List Char) : Option (String × List Char) :=
  let isInside (c : Char) : Bool := isPlain c && c ≠ '\x27'
  match cs.dropWhile isInside with
  | '\x27' :: rest => some (String.ofList (cs.takeWhile isInside), rest)
  | _ => none

/-- The end of a text on several lines, from behind three marks that close it: up to two
more marks in front of the last three belong to the text. -/
def closeLines (mark : Char) (read : List Char) (cs : List Char) : String × List Char :=
  let extra := (cs.takeWhile (· == mark)).take 2
  (String.ofList (read.reverse ++ extra), cs.drop extra.length)

/-- A text on several lines from behind its quotes. A backslash at the end of a line
takes all white space up to the next word away. -/
def quotedLines? (trimming : Bool) (read : List Char) : List Char → Option (String × List Char)
  | [] => none
  | '"' :: '"' :: '"' :: cs => some (closeLines '"' read cs)
  | '\n' :: cs => quotedLines? trimming (if trimming then read else '\n' :: read) cs
  | '\r' :: '\n' :: cs => quotedLines? trimming (if trimming then read else '\n' :: read) cs
  | '\\' :: 'u' :: a :: b :: c :: d :: cs =>
      match scalar? [a, b, c, d] with
      | some x => quotedLines? false (x :: read) cs
      | none => none
  | '\\' :: 'U' :: a :: b :: c :: d :: e :: f :: g :: h :: cs =>
      match scalar? [a, b, c, d, e, f, g, h] with
      | some x => quotedLines? false (x :: read) cs
      | none => none
  | '\\' :: mark :: cs =>
      if (newline? (skipSpaces (mark :: cs))).isSome then quotedLines? true read cs
      else
        match shortEscape? mark with
        | some x => quotedLines? false (x :: read) cs
        | none => none
  | c :: cs =>
      if trimming && isSpace c then quotedLines? true read cs
      else if isPlain c && c ≠ '\\' then quotedLines? false (c :: read) cs
      else none

/-- A text on several lines from behind its apostrophes. -/
def literalLines? (read : List Char) : List Char → Option (String × List Char)
  | [] => none
  | '\x27' :: '\x27' :: '\x27' :: cs => some (closeLines '\x27' read cs)
  | '\n' :: cs => literalLines? ('\n' :: read) cs
  | '\r' :: '\n' :: cs => literalLines? ('\n' :: read) cs
  | c :: cs => if isPlain c then literalLines? (c :: read) cs else none

/-- What follows a line end, if there is one. -/
def skipNewline (cs : List Char) : List Char := (newline? cs).getD cs

/-- A text. A line end right behind three marks that open it is not part of it. -/
def text? : List Char → Option (String × List Char)
  | '"' :: '"' :: '"' :: cs => quotedLines? false [] (skipNewline cs)
  | '"' :: cs => quoted? [] cs
  | '\x27' :: '\x27' :: '\x27' :: cs => literalLines? [] (skipNewline cs)
  | '\x27' :: cs => literal? cs
  | _ => none

/-! ## Integers -/

/-- The digits of a base and what follows. Digits may be grouped by underscores, each
between two digits. -/
def digits? (base : Nat) (cs : List Char) : Option (List Char × List Char) :=
  let isInside (c : Char) : Bool := (Text.digit? base c).isSome || c == '_'
  let word := cs.takeWhile isInside
  if (word.splitOn '_').any List.isEmpty then none
  else some (word.filter (· ≠ '_'), cs.dropWhile isInside)

/-- Integers that are not negative lie below, and no integer lies below its negative. -/
def integerBound : Nat := Nat.pow 2 63

/-- An integer in a base other than ten, from behind the mark of the base. -/
def basedInteger? (base : Nat) (cs : List Char) : Option (Int × List Char) := do
  let (digits, rest) ← digits? base cs
  some (← Text.natural? base integerBound digits, rest)

/-- A decimal integer from behind its sign, with no superfluous zero in front. -/
def decimalInteger? (negative : Bool) (cs : List Char) : Option (Int × List Char) := do
  let (digits, rest) ← digits? 10 cs
  if digits.head? = some '0' && digits.length ≠ 1 then none
  if negative then some (-(← Text.natural? 10 (integerBound + 1) digits), rest)
  else some (← Text.natural? 10 integerBound digits, rest)

/-- An integer. Only decimal ones have a sign. -/
def integer? : List Char → Option (Int × List Char)
  | '0' :: 'x' :: cs => basedInteger? 16 cs
  | '0' :: 'o' :: cs => basedInteger? 8 cs
  | '0' :: 'b' :: cs => basedInteger? 2 cs
  | '-' :: cs => decimalInteger? true cs
  | '+' :: cs => decimalInteger? false cs
  | cs => decimalInteger? false cs

/-! ## Keys -/

/-- A character of a key without quotes. -/
def isKeyChar (c : Char) : Bool := c.isAlphanum || c == '-' || c == '_'

/-- One part of a key. -/
def simpleKey? : List Char → Option (String × List Char)
  | '"' :: cs => quoted? [] cs
  | '\x27' :: cs => literal? cs
  | cs =>
      match cs.takeWhile isKeyChar with
      | [] => none
      | word => some (String.ofList word, cs.dropWhile isKeyChar)

end MediaSniff.Toml
