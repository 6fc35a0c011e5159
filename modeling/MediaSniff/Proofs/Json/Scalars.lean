/-
# MediaSniff.Proofs.Json.Scalars — strings and numbers are read as they are written

A string is written character by character, some of them escaped, and the reader takes each
back for what it was: as it stands, by a short escape or by its code (`splitString?_body`). A
string without a text is written as half of a surrogate pair, which has none.

A number is written by its parts. Each part is a run of digits behind a mark of its own, so the
parts are found again if each is one (`Number.ofChars?_chars`). The digits of a natural number
are one, and stand for it (`Number.toNat?_ofNat`).
-/
import MediaSniff.Json.Print
import MediaSniff.Json.Token
import MediaSniff.Proofs.Text.Runs

set_option autoImplicit false

namespace MediaSniff.Json

/-! ## Strings -/

/-- What the reader takes for a character. -/
def pieceOf (c : Char) : Piece :=
  if c.toNat < 0x20 && !(['\x08', '\x0C', '\n', '\r', '\t'].contains c) then .unit c.toNat
  else .char c

theorem natural?_hexDigits {code : Nat} (low : code < 0x20) :
    Text.natural? 16 0x10000 ['0', '0', hexDigit (code / 16), hexDigit code] = some code := by
  have checked : ∀ code < 0x20,
      Text.natural? 16 0x10000 ['0', '0', hexDigit (code / 16), hexDigit code] = some code := by
    decide
  exact checked code low

theorem pieces?_shortEscape {c : Char}
    (short : c ∈ ['"', '\\', '\x08', '\x0C', '\n', '\r', '\t']) (read : List Piece)
    (rest : List Char) :
    pieces? read (escapeChar c ++ rest) = pieces? (pieceOf c :: read) rest := by
  simp only [List.mem_cons, List.not_mem_nil, or_false] at short
  rcases short with rfl | rfl | rfl | rfl | rfl | rfl | rfl <;> rfl

/-- **A character is read back**, escaped or not. -/
theorem pieces?_escapeChar (c : Char) (read : List Piece) (rest : List Char) :
    pieces? read (escapeChar c ++ rest) = pieces? (pieceOf c :: read) rest := by
  by_cases short : c ∈ ['"', '\\', '\x08', '\x0C', '\n', '\r', '\t']
  · exact pieces?_shortEscape short read rest
  · simp only [List.mem_cons, List.not_mem_nil, or_false, not_or] at short
    by_cases low : c.toNat < 0x20
    · have escaped : escapeChar c =
          ['\\', 'u', '0', '0', hexDigit (c.toNat / 16), hexDigit c.toNat] := by
        simp [escapeChar, short, low]
      have unit : pieceOf c = .unit c.toNat := by
        simp [pieceOf, short, low]
      rw [escaped, unit]
      simp only [List.cons_append, List.nil_append]
      rw [pieces?, natural?_hexDigits low]
    · have plain : escapeChar c = [c] := by
        simp [escapeChar, short, low]
      have char : pieceOf c = .char c := by
        simp [pieceOf, low]
      rw [plain, char, List.singleton_append, pieces?, if_neg (by simp [short, low])]
      all_goals simp [short]

theorem charsOf?_unit {code : Nat} (low : code < 0xD800) (later : List Piece) :
    charsOf? (.unit code :: later) = (charsOf? later).map (Char.ofNat code :: ·) := by
  have single : (decide (code < 0xD800) || decide (0xE000 ≤ code)) = true := by
    rw [decide_eq_true low, Bool.true_or]
  cases later with
  | nil => simp only [charsOf?, single, if_true]
  | cons p later =>
      cases p with
      | char d => simp only [charsOf?, single, if_true]
      | unit lo => rw [charsOf?, if_pos single]

/-- The piece in front of others is the character itself. -/
theorem charsOf?_pieceOf (c : Char) (later : List Piece) :
    charsOf? (pieceOf c :: later) = (charsOf? later).map (c :: ·) := by
  unfold pieceOf
  split
  · rename_i escaped
    simp only [Bool.and_eq_true, decide_eq_true_eq] at escaped
    rw [charsOf?_unit (Nat.lt_trans escaped.1 (by decide)), Char.ofNat_toNat]
  · rw [charsOf?]

/-- What stands behind the opening quote of a string, up to the closing one. -/
def body : Option String → List Char
  | some s => s.toList.flatMap escapeChar ++ ['"']
  | none => ['\\', 'u', 'd', '8', '0', '0', '"']

theorem quoted_eq_cons_body (text : Option String) : quoted text = '"' :: body text := by
  cases text <;> rfl

theorem pieces?_escaped (cs : List Char) (read : List Piece) (rest : List Char) :
    pieces? read (cs.flatMap escapeChar ++ '"' :: rest) =
      some ((cs.map pieceOf).reverse ++ read, rest) := by
  induction cs generalizing read with
  | nil => rw [List.flatMap_nil, List.nil_append, pieces?]; rfl
  | cons c cs ih =>
      rw [List.flatMap_cons, List.append_assoc, pieces?_escapeChar, ih, List.map_cons,
        List.reverse_cons, List.append_assoc, List.singleton_append]

theorem charsOf?_map_pieceOf (cs : List Char) : charsOf? (cs.map pieceOf) = some cs := by
  induction cs with
  | nil => rfl
  | cons c cs ih => rw [List.map_cons, charsOf?_pieceOf, ih, Option.map_some]

/-- **A string is read as it is written**, with its text or without one. -/
theorem splitString?_body (text : Option String) (rest : List Char) :
    splitString? (body text ++ rest) = some (text, rest) := by
  cases text with
  | none => rfl
  | some s =>
      rw [body, splitString?, List.append_assoc, List.singleton_append, pieces?_escaped,
        Option.map_some, List.append_nil, List.reverse_reverse, charsOf?_map_pieceOf,
        Option.map_some, String.ofList_toList]

/-! ## Numbers -/

/-- Digits, of which there are some. -/
def IsDigits (cs : List Char) : Prop := cs ≠ [] ∧ ∀ c ∈ cs, c.isDigit = true

/-- A number whose parts are runs of digits, the first of them without a superfluous zero. -/
structure Number.Proper (n : Number) : Prop where
  whole : IsDigits n.whole
  shortest : ∀ digits, n.whole = '0' :: digits → digits = []
  fraction : ∀ digits ∈ n.fraction, IsDigits digits
  exponent : ∀ e ∈ n.exponent, IsDigits e.digits

/-- The exponent of a number as it is written. -/
def Number.exponentChars (n : Number) : List Char :=
  match n.exponent with
  | some e => 'e' :: (if e.negative then ['-'] else []) ++ e.digits
  | none => []

/-- The fraction of a number as it is written. -/
def Number.fractionChars (n : Number) : List Char :=
  match n.fraction with
  | some digits => '.' :: digits
  | none => []

/-- What is written behind the whole part of a number. -/
def Number.lowerChars (n : Number) : List Char := n.fractionChars ++ n.exponentChars

theorem Number.chars_eq (n : Number) :
    n.chars = (if n.negative then ['-'] else []) ++ (n.whole ++ n.lowerChars) := by
  rw [chars, List.append_assoc, List.append_assoc]
  rfl

theorem isDigit_ne {c d : Char} (digit : c.isDigit = true) (other : d.isDigit = false) : c ≠ d := by
  rintro rfl
  rw [digit] at other
  cases other

theorem digits?_of_isDigits {cs : List Char} (digits : IsDigits cs) : digits? cs = some cs := by
  have all : cs.all Char.isDigit = true := List.all_eq_true.2 digits.2
  have some : cs.isEmpty = false := by simpa using digits.1
  rw [digits?, all, some]
  rfl

theorem exponent?_exponentChars {n : Number} (proper : n.Proper) :
    exponent? n.exponentChars = some n.exponent := by
  unfold Number.exponentChars
  cases written : n.exponent with
  | none => rfl
  | some e =>
      obtain ⟨negative, digits⟩ := e
      have each : IsDigits digits := proper.exponent _ written
      have read := digits?_of_isDigits each
      obtain ⟨c, later, rfl⟩ := List.exists_cons_of_ne_nil each.1
      have digit := each.2 c List.mem_cons_self
      have notMinus : c ≠ '-' := isDigit_ne digit rfl
      have notPlus : c ≠ '+' := isDigit_ne digit rfl
      cases negative with
      | true => simp [exponent?, read]
      | false => simp [exponent?, notMinus, notPlus, read]

theorem Number.isDigit_of_head?_exponentChars (n : Number) :
    ∀ c ∈ n.exponentChars.head?, c.isDigit = false := by
  intro c head
  unfold exponentChars at head
  split at head
  · obtain rfl : 'e' = c := by simpa using head
    rfl
  · cases head

/-- Behind the digits of a whole part there is none. -/
theorem Number.isDigit_of_head?_lowerChars (n : Number) :
    ∀ c ∈ n.lowerChars.head?, c.isDigit = false := by
  intro c head
  unfold lowerChars fractionChars at head
  split at head
  · obtain rfl : '.' = c := by simpa using head
    rfl
  · exact n.isDigit_of_head?_exponentChars c head

theorem splitWhole?_whole {n : Number} (proper : n.Proper) :
    splitWhole? (n.whole ++ n.lowerChars) = some (n.whole, n.lowerChars) := by
  obtain ⟨run, rest⟩ := Text.takeWhile_dropWhile_append proper.whole.2 _
    n.isDigit_of_head?_lowerChars
  rw [splitWhole?, run, rest]
  split
  · rename_i blank
    exact absurd blank proper.whole.1
  · rename_i c later zero
    cases proper.shortest _ zero
  · rfl

/-- **A number is read as it is written.** -/
theorem Number.ofChars?_chars {n : Number} (proper : n.Proper) : ofChars? n.chars = some n := by
  obtain ⟨c, later, spelled⟩ := List.exists_cons_of_ne_nil proper.whole.1
  have notMinus : c ≠ '-' :=
    isDigit_ne (proper.whole.2 c (spelled ▸ List.mem_cons_self)) rfl
  have sign : (n.chars.head? == some '-') = n.negative := by
    rw [n.chars_eq]
    cases n.negative <;> simp [spelled, notMinus]
  have unsigned : (if n.negative then n.chars.drop 1 else n.chars) = n.whole ++ n.lowerChars := by
    rw [n.chars_eq]
    cases n.negative <;> rfl
  have exponent := exponent?_exponentChars proper
  rw [ofChars?]
  simp only [sign, unsigned, splitWhole?_whole proper, Option.bind_eq_bind, Option.bind_some]
  cases fraction : n.fraction with
  | some digits =>
      obtain ⟨some, each⟩ := proper.fraction digits fraction
      obtain ⟨run, rest⟩ := Text.takeWhile_dropWhile_append each _
        n.isDigit_of_head?_exponentChars
      have lower : n.lowerChars = '.' :: (digits ++ n.exponentChars) := by
        rw [lowerChars, fractionChars, fraction]
        rfl
      simp only [lower, run, rest, exponent, Option.bind_some]
      rw [if_neg (by simpa using some), ← fraction]
  | none =>
      have lower : n.lowerChars = n.exponentChars := by
        rw [lowerChars, fractionChars, fraction]
        rfl
      rw [lower]
      split
      · rename_i rest pointed
        rw [pointed] at exponent
        cases exponent
      · rw [exponent, Option.bind_some, ← fraction]

/-! ## Natural numbers -/

theorem digit?_digitChar {d : Nat} (small : d < 10) :
    Text.digit? 10 (Nat.digitChar d) = some d := by
  revert d
  decide

/-- Reading the digits of a number goes on where reading those in front left off. -/
theorem digitsAfter_append (base bound read : Nat) (cs ds : List Char) :
    Text.digitsAfter base bound read (cs ++ ds) =
      (Text.digitsAfter base bound read cs).bind fun read =>
        Text.digitsAfter base bound read ds := by
  induction cs generalizing read with
  | nil => rfl
  | cons c cs ih =>
      rw [List.cons_append, Text.digitsAfter, Text.digitsAfter]
      cases Text.digit? base c with
      | none => rfl
      | some d =>
          dsimp only
          split
          · exact ih _
          · rfl

/-- **The digits of a natural number stand for it.** -/
theorem natural?_toDigits {n bound : Nat} (small : n < bound) :
    Text.natural? 10 bound (Nat.toDigits 10 n) = some n := by
  rw [Text.natural?, if_neg (by simp)]
  induction n using Nat.strongRecOn with
  | ind n ih =>
      rw [Nat.toDigits_eq_if (by decide)]
      split
      · rename_i single
        rw [Text.digitsAfter, digit?_digitChar single]
        simp [Text.digitsAfter, small]
      · have last := digit?_digitChar (Nat.mod_lt n (by decide : 10 > 0))
        have whole : n / 10 * 10 + n % 10 = n := Nat.div_add_mod' n 10
        rw [digitsAfter_append, ih (n / 10) (by omega) (by omega), Option.bind_some,
          Text.digitsAfter, last]
        simp only [whole, if_pos small, Text.digitsAfter]

/-- What is read below a bound is below it. -/
theorem digitsAfter_lt {base bound read n : Nat} {cs : List Char}
    (written : Text.digitsAfter base bound read cs = some n) (some : cs ≠ [] ∨ read < bound) :
    n < bound := by
  induction cs generalizing read with
  | nil =>
      cases written
      exact some.resolve_left fun none => none rfl
  | cons c cs ih =>
      rw [Text.digitsAfter] at written
      split at written
      · cases written
      · split at written
        · rename_i small
          exact ih written (Or.inr small)
        · cases written

theorem Number.lt_of_toNat? {n : Number} {bound value : Nat}
    (read : n.toNat? bound = some value) : value < bound := by
  rw [toNat?] at read
  split at read
  · cases read
  · rw [Text.natural?] at read
    split at read
    · cases read
    · rename_i given
      exact digitsAfter_lt read (Or.inl (by simpa using given))

theorem eq_zero_of_toDigits {n : Nat} {later : List Char}
    (zero : Nat.toDigits 10 n = '0' :: later) : n = 0 := by
  induction n using Nat.strongRecOn generalizing later with
  | ind n ih =>
      rw [Nat.toDigits_eq_if (by decide)] at zero
      split at zero
      · rename_i single
        have value := digit?_digitChar single
        rw [(List.cons.inj zero).1] at value
        exact Option.some.inj (value.symm.trans (by decide))
      · obtain ⟨c, front, spelled⟩ := List.exists_cons_of_ne_nil (Nat.toDigits_ne_nil (n := n / 10))
        rw [spelled, List.cons_append] at zero
        obtain rfl : c = '0' := (List.cons.inj zero).1
        have none := ih (n / 10) (by omega) spelled
        omega

/-- A natural number is written as a number is. -/
theorem Number.proper_ofNat (n : Nat) : Number.Proper { whole := Nat.toDigits 10 n } where
  whole := ⟨Nat.toDigits_ne_nil, fun _ => Nat.isDigit_of_mem_toDigits (by decide) (by decide)⟩
  shortest digits zero := by
    rw [eq_zero_of_toDigits zero, Nat.toDigits_zero] at zero
    exact (List.cons.inj zero).2.symm
  fraction := nofun
  exponent := nofun

/-- **A natural number below a bound is read as what it is.** -/
theorem Number.toNat?_ofNat {n bound : Nat} (small : n < bound) :
    toNat? bound { whole := Nat.toDigits 10 n } = some n :=
  natural?_toDigits small

end MediaSniff.Json
