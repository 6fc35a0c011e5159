/-
# MediaSniff.Json.Token — the tokens of a JSON text

Tokens are brackets, separators and scalars; between them there may be spaces, tabs and
line ends. A run of letters must be one of the three words, and a run of characters that
occur in numbers must be a number as a whole: its integer part has no superfluous zero,
and digits stand on both sides of a point.

Inside a string control characters must be escaped, and escapes of surrogates must come
in pairs to stand for a character.
-/
import MediaSniff.Json.Value
import MediaSniff.Text.Numeral

set_option autoImplicit false

namespace MediaSniff.Json

/-- A token. -/
inductive Token where
  | openArray
  | closeArray
  | openObject
  | closeObject
  | comma
  | colon
  | null
  | bool (b : Bool)
  | number (n : Number)
  | string (text : Option String)
  deriving DecidableEq, Repr

/-- White space between tokens. -/
def isSpace (c : Char) : Bool := c == ' ' || c == '\n' || c == '\t' || c == '\r'

/-- A character as it is, or a 16-bit unit that is escaped. -/
inductive Piece where
  | char (c : Char)
  | unit (u : Nat)
  deriving DecidableEq, Repr

/-- The characters of pieces; none if surrogates are not paired. -/
def charsOf? : List Piece → Option (List Char)
  | [] => some []
  | .char c :: pieces => (charsOf? pieces).map (c :: ·)
  | .unit hi :: .unit lo :: pieces =>
      if hi < 0xD800 || 0xE000 ≤ hi then
        (charsOf? (.unit lo :: pieces)).map (Char.ofNat hi :: ·)
      else if hi < 0xDC00 && 0xDC00 ≤ lo && lo < 0xE000 then
        (charsOf? pieces).map
          (Char.ofNat (0x10000 + (hi - 0xD800) * 0x400 + (lo - 0xDC00)) :: ·)
      else none
  | .unit u :: pieces =>
      if u < 0xD800 || 0xE000 ≤ u then (charsOf? pieces).map (Char.ofNat u :: ·) else none

/-- The character of an escape of one letter or mark. -/
def shortEscape? : Char → Option Char
  | '"' => some '"'
  | '\\' => some '\\'
  | '/' => some '/'
  | 'b' => some '\x08'
  | 'f' => some '\x0C'
  | 'n' => some '\n'
  | 'r' => some '\r'
  | 't' => some '\t'
  | _ => none

/-- The pieces of a string from behind its opening quote, in front of those already
read, and what follows the closing quote. The pieces come out in reverse. -/
def pieces? (read : List Piece) : List Char → Option (List Piece × List Char)
  | [] => none
  | '"' :: cs => some (read, cs)
  | '\\' :: 'u' :: a :: b :: c :: d :: cs =>
      match Text.natural? 16 0x10000 [a, b, c, d] with
      | some u => pieces? (.unit u :: read) cs
      | none => none
  | '\\' :: mark :: cs =>
      match shortEscape? mark with
      | some c => pieces? (.char c :: read) cs
      | none => none
  | c :: cs => if c.toNat < 0x20 || c = '\\' then none else pieces? (.char c :: read) cs

/-- The text of a string from behind its opening quote, and what follows. -/
def splitString? (cs : List Char) : Option (Option String × List Char) :=
  (pieces? [] cs).map fun r => ((charsOf? r.1.reverse).map String.ofList, r.2)

/-- Digits, of which there must be some. -/
def digits? (cs : List Char) : Option (List Char) :=
  if cs.isEmpty || !cs.all Char.isDigit then none else some cs

/-- Digits without a superfluous zero in front, and what follows. -/
def splitWhole? (cs : List Char) : Option (List Char × List Char) :=
  match cs.takeWhile Char.isDigit with
  | [] => none
  | '0' :: _ :: _ => none
  | whole => some (whole, cs.dropWhile Char.isDigit)

/-- The part of a number from its exponent mark on. -/
def exponent? : List Char → Option (Option Exponent)
  | [] => some none
  | mark :: cs =>
      if mark = 'e' || mark = 'E' then
        match cs with
        | '-' :: cs => (digits? cs).map fun digits => some { negative := true, digits }
        | '+' :: cs => (digits? cs).map fun digits => some { digits }
        | cs => (digits? cs).map fun digits => some { digits }
      else none

/-- The number that characters spell. -/
def Number.ofChars? (cs : List Char) : Option Number := do
  let negative := cs.head? == some '-'
  let (whole, rest) ← splitWhole? (if negative then cs.drop 1 else cs)
  match rest with
  | '.' :: rest =>
      let fraction := rest.takeWhile Char.isDigit
      if fraction.isEmpty then none
      let exponent ← exponent? (rest.dropWhile Char.isDigit)
      some { negative, whole, fraction := some fraction, exponent }
  | rest =>
      let exponent ← exponent? rest
      some { negative, whole, exponent }

/-- Whether a character occurs in numbers. -/
def isNumberChar (c : Char) : Bool :=
  c.isDigit || c == '-' || c == '+' || c == '.' || c == 'e' || c == 'E'

/-- Whether a number begins with a character. -/
def startsNumber (c : Char) : Bool := c.isDigit || c == '-'

/-- The token that a word is. -/
def Token.ofWord? : List Char → Option Token
  | ['n', 'u', 'l', 'l'] => some .null
  | ['t', 'r', 'u', 'e'] => some (.bool true)
  | ['f', 'a', 'l', 's', 'e'] => some (.bool false)
  | _ => none

/-- The token of a bracket or separator. -/
def Token.ofMark? : Char → Option Token
  | '[' => some .openArray
  | ']' => some .closeArray
  | '\x7b' => some .openObject
  | '\x7d' => some .closeObject
  | ',' => some .comma
  | ':' => some .colon
  | _ => none

theorem pieces?_length_le {read : List Piece} {cs : List Char} {r : List Piece × List Char}
    (h : pieces? read cs = some r) : r.2.length ≤ cs.length := by
  fun_induction pieces? read cs generalizing r with
  | case1 => simp at h
  | case2 read cs =>
      simp only [Option.some.injEq] at h
      subst h
      simp
  | case3 read a b c d cs u _ ih =>
      have := ih h
      simp only [List.length_cons]
      omega
  | case4 => simp at h
  | case5 read mark cs _ c _ ih =>
      have := ih h
      simp only [List.length_cons]
      omega
  | case6 => simp at h
  | case7 => simp at h
  | case8 read c cs _ _ _ _ ih =>
      have := ih h
      simp only [List.length_cons]
      omega

theorem splitString?_length_le {cs rest : List Char} {text : Option String}
    (h : splitString? cs = some (text, rest)) : rest.length ≤ cs.length := by
  obtain ⟨r, hr, e⟩ := Option.map_eq_some_iff.1 h
  simp only [Prod.mk.injEq] at e
  obtain ⟨-, rfl⟩ := e
  exact pieces?_length_le hr

/-- The tokens of a text, behind those already read, which stand in reverse. -/
def tokensAfter? (read : List Token) : List Char → Option (List Token)
  | [] => some read.reverse
  | c :: cs =>
      if isSpace c then tokensAfter? read cs
      else if c = '"' then
        match _h : splitString? cs with
        | some (text, rest) => tokensAfter? (.string text :: read) rest
        | none => none
      else if startsNumber c then
        match Number.ofChars? (c :: cs.takeWhile isNumberChar) with
        | some n => tokensAfter? (.number n :: read) (cs.dropWhile isNumberChar)
        | none => none
      else if c.isAlpha then
        match Token.ofWord? (c :: cs.takeWhile Char.isAlpha) with
        | some t => tokensAfter? (t :: read) (cs.dropWhile Char.isAlpha)
        | none => none
      else
        match Token.ofMark? c with
        | some t => tokensAfter? (t :: read) cs
        | none => none
termination_by cs => cs.length
decreasing_by
  · simp
  · have := splitString?_length_le _h
    simp only [List.length_cons]
    omega
  · have := (List.dropWhile_sublist (l := cs) isNumberChar).length_le
    simp only [List.length_cons]
    omega
  · have := (List.dropWhile_sublist (l := cs) Char.isAlpha).length_le
    simp only [List.length_cons]
    omega
  · simp

/-- The tokens of a text. -/
def tokens? (cs : List Char) : Option (List Token) := tokensAfter? [] cs

end MediaSniff.Json
