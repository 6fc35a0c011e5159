/-
# MediaSniff.Proofs.Json.Printing — what is written is read

A value is written as a sequence of tokens (`tokens`), with nothing or with new lines in
between. Each token ends where the next one begins, since behind a word or a number there stands
a mark or white space, so the tokens are found again (`Proper.spells_compact`,
`Proper.spells_pretty`); and the machine that puts them together takes those of a value for one
step, however deeply it is nested (`Proper.oneStep`). So every value whose numbers are numbers
is read back from both ways in which it can be written (`Proper.parse?_compact`,
`Proper.parse?_pretty`).
-/
import MediaSniff.Json.Parse
import MediaSniff.Proofs.Json.Scalars

set_option autoImplicit false

namespace MediaSniff.Json

/-! ## Tokens of values -/

mutual

/-- The tokens that a value is written with. -/
def tokens : Json → List Token
  | .null => [.null]
  | .bool b => [.bool b]
  | .number n => [.number n]
  | .string text => [.string text]
  | .array [] => [.openArray, .closeArray]
  | .array (v :: vs) => .openArray :: (tokens v ++ elementTokens vs)
  | .object [] => [.openObject, .closeObject]
  | .object ((key, v) :: ms) =>
      .openObject :: .string key :: .colon :: (tokens v ++ memberTokens ms)

/-- The tokens of the further elements of an array and of its end. -/
def elementTokens : List Json → List Token
  | [] => [.closeArray]
  | v :: vs => .comma :: (tokens v ++ elementTokens vs)

/-- The tokens of the further members of an object and of its end. -/
def memberTokens : List (Option String × Json) → List Token
  | [] => [.closeObject]
  | (key, v) :: ms => .comma :: .string key :: .colon :: (tokens v ++ memberTokens ms)

end

/-- A value whose numbers are written as numbers. -/
inductive Proper : Json → Prop
  | null : Proper .null
  | bool (b : Bool) : Proper (.bool b)
  | number {n : Number} (proper : n.Proper) : Proper (.number n)
  | string (text : Option String) : Proper (.string text)
  | array {elements : List Json} (each : ∀ v ∈ elements, Proper v) : Proper (.array elements)
  | object {members : List (Option String × Json)} (each : ∀ m ∈ members, Proper m.2) :
      Proper (.object members)

/-! ## Reading tokens -/

/-- A text in front of which a word or a number ends. -/
def Apart (cs : List Char) : Prop :=
  ∀ c ∈ cs.head?, isNumberChar c = false ∧ c.isAlpha = false

theorem apart_nil : Apart [] := nofun

theorem apart_cons {c : Char} (stop : isSpace c = true ∨ c ∈ [',', ']', '\x7d'])
    (cs : List Char) : Apart (c :: cs) := by
  intro d head
  obtain rfl : c = d := by simpa using head
  simp only [isSpace, Bool.or_eq_true, beq_iff_eq, List.mem_cons, List.not_mem_nil,
    or_false] at stop
  rcases stop with (((rfl | rfl) | rfl) | rfl) | rfl | rfl | rfl <;> exact ⟨rfl, rfl⟩

/-- White space, or nothing. -/
def Blank (gap : List Char) : Prop := ∀ c ∈ gap, isSpace c = true

theorem blank_nil : Blank [] := nofun

theorem blank_space : Blank [' '] := List.forall_mem_singleton.2 rfl

theorem blank_newline (level : Nat) : Blank (newline level) := by
  refine List.forall_mem_cons.2 ⟨rfl, fun c mem => ?_⟩
  rw [List.eq_of_mem_replicate mem]
  rfl

/-- White space between tokens is passed over. -/
theorem Blank.tokensAfter? {gap : List Char} (blank : Blank gap) (read : List Token)
    (cs : List Char) : tokensAfter? read (gap ++ cs) = Json.tokensAfter? read cs := by
  induction gap with
  | nil => rfl
  | cons c gap ih =>
      obtain ⟨here, later⟩ := List.forall_mem_cons.1 blank
      rw [List.cons_append, Json.tokensAfter?, if_pos here, ih later]

theorem tokensAfter?_mark {c : Char} {t : Token} (mark : Token.ofMark? c = some t)
    (read : List Token) (cs : List Char) :
    tokensAfter? read (c :: cs) = tokensAfter? (t :: read) cs := by
  have marks : c ∈ ['[', ']', '\x7b', '\x7d', ',', ':'] := by
    unfold Token.ofMark? at mark
    split at mark <;> first | decide | cases mark
  have other : isSpace c = false ∧ c ≠ '"' ∧ startsNumber c = false ∧ c.isAlpha = false := by
    simp only [List.mem_cons, List.not_mem_nil, or_false] at marks
    rcases marks with rfl | rfl | rfl | rfl | rfl | rfl <;> decide
  rw [tokensAfter?]
  simp [other, mark]

theorem tokensAfter?_quoted (text : Option String) (read : List Token) (rest : List Char) :
    tokensAfter? read (quoted text ++ rest) = tokensAfter? (.string text :: read) rest := by
  have found := splitString?_body text rest
  rw [quoted_eq_cons_body, List.cons_append, tokensAfter?, if_neg (by decide), if_pos rfl]
  split
  · rename_i same
    rw [found] at same
    cases same
    rfl
  · rename_i none
    rw [found] at none
    cases none

/-- Words and numbers do not begin as other tokens do. -/
theorem word_number_starts (c : Char) :
    (c.isAlpha = true → isSpace c = false ∧ c ≠ '"' ∧ startsNumber c = false) ∧
      (startsNumber c = true → isSpace c = false ∧ c ≠ '"') := by
  have marks : ∀ d ∈ [' ', '\n', '\t', '\r', '"'], d.isAlpha = false ∧ startsNumber d = false := by
    intro d mem
    simp only [List.mem_cons, List.not_mem_nil, or_false] at mem
    rcases mem with rfl | rfl | rfl | rfl | rfl <;> exact ⟨rfl, rfl⟩
  have letter : c.isAlpha = true → startsNumber c = false := by
    intro alpha
    have checked := Text.forall_ascii (p := fun c => !c.isAlpha || !startsNumber c)
      (by decide) (Text.toNat_lt_of_isAlphanum (by rw [Char.isAlphanum, alpha, Bool.true_or]))
    simpa [alpha] using checked
  by_cases mark : c ∈ [' ', '\n', '\t', '\r', '"']
  · rw [(marks c mark).1, (marks c mark).2]
    exact ⟨fun alpha => absurd alpha Bool.false_ne_true,
      fun starts => absurd starts Bool.false_ne_true⟩
  · simp only [List.mem_cons, List.not_mem_nil, or_false, not_or] at mark
    have space : isSpace c = false := by simp [isSpace, mark]
    exact ⟨fun alpha => ⟨space, mark.2.2.2.2, letter alpha⟩, fun _ => ⟨space, mark.2.2.2.2⟩⟩

theorem tokensAfter?_word {word : List Char} {t : Token} (known : Token.ofWord? word = some t)
    (read : List Token) {rest : List Char} (apart : Apart rest) :
    tokensAfter? read (word ++ rest) = tokensAfter? (t :: read) rest := by
  have letters : ∃ c later, word = c :: later ∧ ∀ d ∈ c :: later, d.isAlpha = true := by
    unfold Token.ofWord? at known
    split at known
    · exact ⟨_, _, rfl, List.all_eq_true.1 rfl⟩
    · exact ⟨_, _, rfl, List.all_eq_true.1 rfl⟩
    · exact ⟨_, _, rfl, List.all_eq_true.1 rfl⟩
    · cases known
  obtain ⟨c, later, rfl, alpha⟩ := letters
  obtain ⟨first, others⟩ := List.forall_mem_cons.1 alpha
  have other := (word_number_starts c).1 first
  obtain ⟨run, behind⟩ := Text.takeWhile_dropWhile_append others rest fun d head => (apart d head).2
  rw [List.cons_append, tokensAfter?]
  simp [other, first, run, behind, known]

theorem Number.isNumberChar_of_mem {n : Number} (proper : n.Proper) :
    ∀ c ∈ n.chars, isNumberChar c = true := by
  have digits {cs : List Char} (each : IsDigits cs) : ∀ c ∈ cs, isNumberChar c = true :=
    fun c mem => by rw [isNumberChar, each.2 c mem]; rfl
  have sign (negative : Bool) :
      ∀ c ∈ (if negative then ['-'] else []), isNumberChar c = true := by
    cases negative with
    | true => exact List.forall_mem_singleton.2 rfl
    | false => exact List.forall_mem_nil _
  have fraction : ∀ c ∈ n.fractionChars, isNumberChar c = true := by
    unfold fractionChars
    split
    · rename_i ds written
      exact List.forall_mem_cons.2 ⟨rfl, digits (proper.fraction ds written)⟩
    · exact List.forall_mem_nil _
  have exponent : ∀ c ∈ n.exponentChars, isNumberChar c = true := by
    unfold exponentChars
    split
    · rename_i e written
      exact List.forall_mem_append.2 ⟨List.forall_mem_cons.2 ⟨rfl, sign e.negative⟩,
        digits (proper.exponent e written)⟩
    · exact List.forall_mem_nil _
  rw [chars_eq, lowerChars]
  exact List.forall_mem_append.2 ⟨sign n.negative, List.forall_mem_append.2
    ⟨digits proper.whole, List.forall_mem_append.2 ⟨fraction, exponent⟩⟩⟩

theorem Number.exists_chars_eq_cons {n : Number} (proper : n.Proper) :
    ∃ c later, n.chars = c :: later ∧ startsNumber c = true := by
  obtain ⟨c, later, spelled⟩ := List.exists_cons_of_ne_nil proper.whole.1
  have digit := proper.whole.2 c (spelled ▸ List.mem_cons_self)
  rw [chars_eq, spelled]
  cases n.negative with
  | true => exact ⟨_, _, rfl, rfl⟩
  | false => exact ⟨_, _, rfl, by rw [startsNumber, digit, Bool.true_or]⟩

theorem tokensAfter?_number {n : Number} (proper : n.Proper) (read : List Token)
    {rest : List Char} (apart : Apart rest) :
    tokensAfter? read (n.chars ++ rest) = tokensAfter? (.number n :: read) rest := by
  obtain ⟨c, later, spelled, starts⟩ := Number.exists_chars_eq_cons proper
  have proper' := Number.isNumberChar_of_mem proper
  have number := Number.ofChars?_chars proper
  rw [spelled] at proper' number ⊢
  have other := (word_number_starts c).2 starts
  obtain ⟨run, behind⟩ := Text.takeWhile_dropWhile_append (List.forall_mem_cons.1 proper').2 rest
    fun d head => (apart d head).1
  rw [List.cons_append, tokensAfter?]
  simp [other, starts, run, behind, number]

/-! ## Reading values -/

/-- The tokens of a value are found in a text, in front of whatever ends them. -/
def Spells (text : List Char) (v : Json) : Prop :=
  ∀ (read : List Token) (rest : List Char), Apart rest →
    tokensAfter? read (text ++ rest) = tokensAfter? ((tokens v).reverse ++ read) rest

theorem spells_null : Spells (compact .null) .null :=
  fun read _ apart => tokensAfter?_word rfl read apart

theorem spells_bool (b : Bool) : Spells (compact (.bool b)) (.bool b) := by
  cases b with
  | true => exact fun read rest apart => tokensAfter?_word rfl read apart
  | false => exact fun read rest apart => tokensAfter?_word rfl read apart

theorem spells_number {n : Number} (proper : n.Proper) : Spells n.chars (.number n) :=
  fun read _ apart => tokensAfter?_number proper read apart

theorem spells_string (text : Option String) : Spells (quoted text) (.string text) :=
  fun read rest _ => tokensAfter?_quoted text read rest

theorem spells_nil_array : Spells ['[', ']'] (.array []) := by
  intro read rest _
  rw [List.cons_append, tokensAfter?_mark rfl, List.singleton_append, tokensAfter?_mark rfl]
  rfl

theorem spells_nil_object : Spells ['\x7b', '\x7d'] (.object []) := by
  intro read rest _
  rw [List.cons_append, tokensAfter?_mark rfl, List.singleton_append, tokensAfter?_mark rfl]
  rfl

/-- The tokens up to the end of an array or an object are found in a text, and a word or a
number ends in front of it. -/
structure SpellsEnd (text : List Char) (ts : List Token) : Prop where
  apart : ∀ rest, Apart (text ++ rest)
  found : ∀ (read : List Token) (rest : List Char),
    tokensAfter? read (text ++ rest) = tokensAfter? (ts.reverse ++ read) rest

section Parts

variable {gap space text more : List Char} {v : Json} {vs : List Json} {key : Option String}
  {ms : List (Option String × Json)}

theorem SpellsEnd.close {c : Char} {t : Token} (blank : Blank gap) (closes : c ∈ [']', '\x7d'])
    (mark : Token.ofMark? c = some t) : SpellsEnd (gap ++ [c]) [t] where
  apart rest := by
    cases gap with
    | nil => exact apart_cons (Or.inr (List.mem_cons_of_mem _ closes)) _
    | cons d gap => exact apart_cons (Or.inl (blank d List.mem_cons_self)) _
  found read rest := by
    rw [List.append_assoc, blank.tokensAfter?, List.singleton_append, tokensAfter?_mark mark]
    rfl

/-- A further element of an array stands behind a comma and white space. -/
theorem SpellsEnd.element (blank : Blank gap) (here : Spells text v)
    (later : SpellsEnd more (elementTokens vs)) :
    SpellsEnd (',' :: gap ++ text ++ more) (elementTokens (v :: vs)) where
  apart rest := apart_cons (Or.inr List.mem_cons_self) _
  found read rest := by
    rw [List.append_assoc, List.append_assoc, List.cons_append,
      tokensAfter?_mark (t := .comma) rfl, blank.tokensAfter?, here _ _ (later.apart rest),
      later.found]
    simp [elementTokens]

/-- A further member of an object has white space behind the colon, too. -/
theorem SpellsEnd.member (blank : Blank gap) (blank' : Blank space) (here : Spells text v)
    (later : SpellsEnd more (memberTokens ms)) :
    SpellsEnd (',' :: gap ++ quoted key ++ ':' :: (space ++ text) ++ more)
      (memberTokens ((key, v) :: ms)) where
  apart rest := apart_cons (Or.inr List.mem_cons_self) _
  found read rest := by
    rw [List.append_assoc, List.append_assoc, List.append_assoc, List.cons_append,
      List.cons_append, List.append_assoc, tokensAfter?_mark (t := .comma) rfl,
      blank.tokensAfter?, tokensAfter?_quoted, tokensAfter?_mark (t := .colon) rfl,
      blank'.tokensAfter?, here _ _ (later.apart rest), later.found]
    simp [memberTokens]

theorem Spells.array (blank : Blank gap) (here : Spells text v)
    (later : SpellsEnd more (elementTokens vs)) :
    Spells ('[' :: gap ++ text ++ more) (.array (v :: vs)) := by
  intro read rest _
  rw [List.append_assoc, List.append_assoc, List.cons_append,
    tokensAfter?_mark (t := .openArray) rfl, blank.tokensAfter?, here _ _ (later.apart rest),
    later.found]
  simp [tokens]

theorem Spells.object (blank : Blank gap) (blank' : Blank space) (here : Spells text v)
    (later : SpellsEnd more (memberTokens ms)) :
    Spells ('\x7b' :: gap ++ quoted key ++ ':' :: (space ++ text) ++ more)
      (.object ((key, v) :: ms)) := by
  intro read rest _
  rw [List.append_assoc, List.append_assoc, List.append_assoc, List.cons_append,
    List.cons_append, List.append_assoc, tokensAfter?_mark (t := .openObject) rfl,
    blank.tokensAfter?, tokensAfter?_quoted, tokensAfter?_mark (t := .colon) rfl,
    blank'.tokensAfter?, here _ _ (later.apart rest), later.found]
  simp [tokens]

end Parts

/-! ### Without white space -/

theorem spellsEnd_compactElements {vs : List Json} (each : ∀ v ∈ vs, Spells (compact v) v) :
    SpellsEnd (compactElements vs) (elementTokens vs) := by
  induction vs with
  | nil => exact .close blank_nil (by decide) rfl
  | cons v vs ih =>
      obtain ⟨here, later⟩ := List.forall_mem_cons.1 each
      exact .element blank_nil here (ih later)

theorem spellsEnd_compactMembers {ms : List (Option String × Json)}
    (each : ∀ m ∈ ms, Spells (compact m.2) m.2) :
    SpellsEnd (compactMembers ms) (memberTokens ms) := by
  induction ms with
  | nil => exact .close blank_nil (by decide) rfl
  | cons m ms ih =>
      obtain ⟨here, later⟩ := List.forall_mem_cons.1 each
      exact .member blank_nil blank_nil here (ih later)

/-- **The tokens of a value that is written without white space** are those of the value. -/
theorem Proper.spells_compact {v : Json} (proper : v.Proper) : Spells (compact v) v := by
  induction proper with
  | null => exact spells_null
  | bool b => exact spells_bool b
  | number proper => exact spells_number proper
  | string text => exact spells_string text
  | @array elements _ ih =>
      cases elements with
      | nil => exact spells_nil_array
      | cons v vs =>
          obtain ⟨here, later⟩ := List.forall_mem_cons.1 ih
          exact .array blank_nil here (spellsEnd_compactElements later)
  | @object members _ ih =>
      cases members with
      | nil => exact spells_nil_object
      | cons m ms =>
          obtain ⟨here, later⟩ := List.forall_mem_cons.1 ih
          exact .object blank_nil blank_nil here (spellsEnd_compactMembers later)

/-! ### On indented lines -/

theorem spellsEnd_prettyElements {level : Nat} {vs : List Json}
    (each : ∀ v ∈ vs, Spells (pretty (level + 1) v) v) :
    SpellsEnd (prettyElements level vs) (elementTokens vs) := by
  induction vs with
  | nil => exact .close (blank_newline level) (by decide) rfl
  | cons v vs ih =>
      obtain ⟨here, later⟩ := List.forall_mem_cons.1 each
      exact .element (blank_newline _) here (ih later)

theorem spellsEnd_prettyMembers {level : Nat} {ms : List (Option String × Json)}
    (each : ∀ m ∈ ms, Spells (pretty (level + 1) m.2) m.2) :
    SpellsEnd (prettyMembers level ms) (memberTokens ms) := by
  induction ms with
  | nil => exact .close (blank_newline level) (by decide) rfl
  | cons m ms ih =>
      obtain ⟨here, later⟩ := List.forall_mem_cons.1 each
      exact .member (blank_newline _) blank_space here (ih later)

/-- **The tokens of a value that is written on lines** are those of the value. -/
theorem Proper.spells_pretty {v : Json} (proper : v.Proper) (level : Nat) :
    Spells (pretty level v) v := by
  induction proper generalizing level with
  | null => exact spells_null
  | bool b =>
      cases b with
      | true => exact spells_bool true
      | false => exact spells_bool false
  | number proper => exact spells_number proper
  | string text => exact spells_string text
  | @array elements _ ih =>
      cases elements with
      | nil => exact spells_nil_array
      | cons v vs =>
          obtain ⟨here, later⟩ := List.forall_mem_cons.1 ih
          exact .array (blank_newline _) (here _)
            (spellsEnd_prettyElements fun v mem => later v mem _)
  | @object members _ ih =>
      cases members with
      | nil => exact spells_nil_object
      | cons m ms =>
          obtain ⟨here, later⟩ := List.forall_mem_cons.1 ih
          exact .object (blank_newline _) blank_space (here _)
            (spellsEnd_prettyMembers fun m mem => later m mem _)

/-! ## Putting values together -/

/-- The tokens of a value are one step of the machine. -/
def OneStep (v : Json) : Prop :=
  ∀ (frames : List Frame) (later : List Token),
    run? (.value frames) (tokens v ++ later) = run? (complete v frames) later

/-- No value begins with the end of an array. -/
theorem exists_tokens_eq_cons (v : Json) :
    ∃ t later, tokens v = t :: later ∧ t ≠ .closeArray := by
  cases v with
  | null => exact ⟨_, _, rfl, nofun⟩
  | bool b => exact ⟨_, _, rfl, nofun⟩
  | number n => exact ⟨_, _, rfl, nofun⟩
  | string text => exact ⟨_, _, rfl, nofun⟩
  | array elements => cases elements <;> exact ⟨_, _, rfl, nofun⟩
  | object members => cases members <;> exact ⟨_, _, rfl, nofun⟩

/-- The first element of an array is read as any other. -/
theorem run?_firstElement (v : Json) (frames : List Frame) (later : List Token) :
    run? (.firstElement frames) (tokens v ++ later) =
      run? (.value (.inArray [] :: frames)) (tokens v ++ later) := by
  obtain ⟨t, more, spelled, other⟩ := exists_tokens_eq_cons v
  rw [spelled, List.cons_append, run?, run?]
  have same : step? (.firstElement frames) t = step? (.value (.inArray [] :: frames)) t := by
    cases t <;> first | rfl | exact absurd rfl other
  rw [same]

theorem run?_elementTokens {vs : List Json} (each : ∀ v ∈ vs, OneStep v) (read : List Json)
    (frames : List Frame) (later : List Token) :
    run? (.afterElement read frames) (elementTokens vs ++ later) =
      run? (complete (.array (read.reverse ++ vs)) frames) later := by
  induction vs generalizing read with
  | nil =>
      rw [List.append_nil]
      rfl
  | cons v vs ih =>
      obtain ⟨here, others⟩ := List.forall_mem_cons.1 each
      have comma : run? (.afterElement read frames) (elementTokens (v :: vs) ++ later) =
          run? (.value (.inArray read :: frames)) (tokens v ++ (elementTokens vs ++ later)) := by
        rw [elementTokens, List.cons_append, List.append_assoc]
        rfl
      rw [comma, here]
      refine (ih others (v :: read)).trans ?_
      rw [List.reverse_cons, List.append_assoc, List.singleton_append]

theorem run?_memberTokens {ms : List (Option String × Json)} (each : ∀ m ∈ ms, OneStep m.2)
    (read : List (Option String × Json)) (frames : List Frame) (later : List Token) :
    run? (.afterMember read frames) (memberTokens ms ++ later) =
      run? (complete (.object (read.reverse ++ ms)) frames) later := by
  induction ms generalizing read with
  | nil =>
      rw [List.append_nil]
      rfl
  | cons m ms ih =>
      obtain ⟨key, v⟩ := m
      obtain ⟨here, others⟩ := List.forall_mem_cons.1 each
      have comma : run? (.afterMember read frames) (memberTokens ((key, v) :: ms) ++ later) =
          run? (.value (.inObject read key :: frames))
            (tokens v ++ (memberTokens ms ++ later)) := by
        rw [memberTokens, List.cons_append, List.cons_append, List.cons_append, List.append_assoc]
        rfl
      rw [comma, here]
      refine (ih others ((key, v) :: read)).trans ?_
      rw [List.reverse_cons, List.append_assoc, List.singleton_append]

/-- **A value is put together from its tokens**, whatever it stands in. -/
theorem Proper.oneStep {v : Json} (proper : v.Proper) : OneStep v := by
  induction proper with
  | null => exact fun _ _ => rfl
  | bool b => exact fun _ _ => rfl
  | number _ => exact fun _ _ => rfl
  | string text => exact fun _ _ => rfl
  | @array elements _ ih =>
      intro frames later
      cases elements with
      | nil => rfl
      | cons v vs =>
          obtain ⟨here, others⟩ := List.forall_mem_cons.1 ih
          have opened : run? (.value frames) (tokens (.array (v :: vs)) ++ later) =
              run? (.firstElement frames) (tokens v ++ (elementTokens vs ++ later)) := by
            rw [tokens, List.cons_append, List.append_assoc]
            rfl
          rw [opened, run?_firstElement, here]
          exact run?_elementTokens others [v] frames later
  | @object members _ ih =>
      intro frames later
      cases members with
      | nil => rfl
      | cons m ms =>
          obtain ⟨key, v⟩ := m
          obtain ⟨here, others⟩ := List.forall_mem_cons.1 ih
          have opened : run? (.value frames) (tokens (.object ((key, v) :: ms)) ++ later) =
              run? (.value (.inObject [] key :: frames))
                (tokens v ++ (memberTokens ms ++ later)) := by
            rw [tokens, List.cons_append, List.cons_append, List.cons_append, List.append_assoc]
            rfl
          rw [opened, here]
          exact run?_memberTokens others [(key, v)] frames later

/-- A text that spells the tokens of a value spells the value. -/
theorem Proper.parse?_of_spells {v : Json} (proper : v.Proper) {text : List Char}
    (spells : Spells text v) : parse? text = some v := by
  have found := spells [] [] apart_nil
  have whole := proper.oneStep [] []
  rw [List.append_nil, List.append_nil] at found
  rw [List.append_nil] at whole
  rw [parse?, tokens?, found, tokensAfter?, List.reverse_reverse, Option.bind_some, ofTokens?,
    whole]
  rfl

/-- **What is written is read**, if its numbers are numbers. -/
theorem Proper.parse?_compact {v : Json} (proper : v.Proper) : parse? (compact v) = some v :=
  proper.parse?_of_spells proper.spells_compact

theorem Proper.parse?_pretty {v : Json} (proper : v.Proper) (level : Nat) :
    parse? (pretty level v) = some v :=
  proper.parse?_of_spells (proper.spells_pretty level)

end MediaSniff.Json
