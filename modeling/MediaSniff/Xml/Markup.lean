/-
# MediaSniff.Xml.Markup — the pieces of markup in a text

The scanner is tolerant: it steps from one `<` to the next and tells what begins there
by the characters that follow. Instructions, comments and end tags run to a fixed mark.
A start tag runs to the first `>` outside quotes, a directive to the first `>` outside
quotes and brackets; a character data section is a directive that runs to its own mark.

A piece that the end of the text cuts off is no piece, and nothing after it is either.
-/
set_option autoImplicit false

namespace MediaSniff.Xml

/-- A piece of markup. -/
inductive Markup where
  | instruction
  | comment
  | directive
  | endTag
  /-- A start or empty-element tag, with the text between its angle brackets. -/
  | startTag (text : List Char)
  deriving DecidableEq, Repr

/-- What follows the first occurrence of a mark. -/
def after? (mark : List Char) : List Char → Option (List Char)
  | [] => if mark.isEmpty then some [] else none
  | c :: cs =>
      if mark.isPrefixOf (c :: cs) then some ((c :: cs).drop mark.length) else after? mark cs

/-- Whether a character opens a quoted value. -/
def isQuote (c : Char) : Bool := c == '"' || c == '\x27'

/-- The text up to the first `>` outside quotes, and what follows it. `quote` is the
quote that is open. -/
def splitTag? (quote : Option Char) : List Char → Option (List Char × List Char)
  | [] => none
  | c :: cs =>
      match quote with
      | some q => (splitTag? (if c = q then none else some q) cs).map fun r => (c :: r.1, r.2)
      | none =>
          if c = '>' then some ([], cs)
          else (splitTag? (if isQuote c then some c else none) cs).map fun r => (c :: r.1, r.2)

/-- What follows the first `>` outside quotes and brackets. `depth` counts the open
brackets, and `quote` is the quote that is open. -/
def afterBrackets? (depth : Nat) (quote : Option Char) : List Char → Option (List Char)
  | [] => none
  | c :: cs =>
      match quote with
      | some q => afterBrackets? depth (if c = q then none else some q) cs
      | none =>
          if isQuote c then afterBrackets? depth (some c) cs
          else if c = '[' then afterBrackets? (depth + 1) none cs
          else if c = ']' then afterBrackets? (depth - 1) none cs
          else if c = '>' && depth = 0 then some cs
          else afterBrackets? depth none cs

/-- What follows a directive, given what follows its `<!`. -/
def afterDirective? : List Char → Option (List Char)
  | '[' :: 'C' :: 'D' :: 'A' :: 'T' :: 'A' :: '[' :: cs => after? [']', ']', '>'] cs
  | cs => afterBrackets? 0 none cs

/-- The piece that follows a `<`, and the text behind it. -/
def Markup.first? : List Char → Option (Markup × List Char)
  | '?' :: cs => (after? ['?', '>'] cs).map fun rest => (.instruction, rest)
  | '!' :: '-' :: '-' :: cs => (after? ['-', '-', '>'] cs).map fun rest => (.comment, rest)
  | '!' :: cs => (afterDirective? cs).map fun rest => (.directive, rest)
  | '/' :: cs => (after? ['>'] cs).map fun rest => (.endTag, rest)
  | cs => (splitTag? none cs).map fun r => (.startTag r.1, r.2)

theorem after?_length_le {mark cs rest : List Char} (h : after? mark cs = some rest) :
    rest.length ≤ cs.length := by
  induction cs with
  | nil => unfold after? at h; split at h <;> simp_all
  | cons c cs ih =>
      unfold after? at h
      split at h
      · simp only [Option.some.injEq] at h
        subst h
        simp only [List.length_drop, List.length_cons]
        omega
      · have := ih h
        simp only [List.length_cons]
        omega

theorem splitTag?_length_le {quote : Option Char} {cs : List Char} {r : List Char × List Char}
    (h : splitTag? quote cs = some r) : r.2.length ≤ cs.length := by
  induction cs generalizing quote r with
  | nil => simp [splitTag?] at h
  | cons c cs ih =>
      unfold splitTag? at h
      split at h
      · obtain ⟨s, hs, rfl⟩ := Option.map_eq_some_iff.1 h
        have := ih hs
        simp only [List.length_cons]
        omega
      · split at h
        · simp only [Option.some.injEq] at h
          subst h
          simp
        · obtain ⟨s, hs, rfl⟩ := Option.map_eq_some_iff.1 h
          have := ih hs
          simp only [List.length_cons]
          omega

theorem afterBrackets?_length_le {depth : Nat} {quote : Option Char} {cs rest : List Char}
    (h : afterBrackets? depth quote cs = some rest) : rest.length ≤ cs.length := by
  induction cs generalizing depth quote with
  | nil => simp [afterBrackets?] at h
  | cons c cs ih =>
      simp only [List.length_cons]
      unfold afterBrackets? at h
      split at h
      · have := ih h; omega
      · split at h
        · have := ih h; omega
        · split at h
          · have := ih h; omega
          · split at h
            · have := ih h; omega
            · split at h
              · simp only [Option.some.injEq] at h
                subst h
                omega
              · have := ih h; omega

theorem afterDirective?_length_le {cs rest : List Char} (h : afterDirective? cs = some rest) :
    rest.length ≤ cs.length := by
  unfold afterDirective? at h
  split at h
  · have := after?_length_le h
    simp only [List.length_cons]
    omega
  · exact afterBrackets?_length_le h

/-- Reading a piece lengthens nothing. -/
theorem Markup.first?_length_le {cs : List Char} {m : Markup} {rest : List Char}
    (h : Markup.first? cs = some (m, rest)) : rest.length ≤ cs.length := by
  unfold Markup.first? at h
  split at h <;> obtain ⟨r, hr, e⟩ := Option.map_eq_some_iff.1 h <;>
    simp only [Prod.mk.injEq] at e <;> obtain ⟨-, rfl⟩ := e
  · exact Nat.le_succ_of_le (after?_length_le hr)
  · exact Nat.le_add_right_of_le (k := 3) (after?_length_le hr)
  · exact Nat.le_succ_of_le (afterDirective?_length_le hr)
  · exact Nat.le_succ_of_le (after?_length_le hr)
  · exact splitTag?_length_le hr

/-- All pieces of markup in a text, up to the first that is cut off. -/
def markups : List Char → List Markup
  | [] => []
  | c :: cs =>
      if c = '<' then
        match _h : Markup.first? cs with
        | none => []
        | some (m, rest) => m :: markups rest
      else markups cs
termination_by cs => cs.length
decreasing_by
  · have := Markup.first?_length_le _h
    simp only [List.length_cons]
    omega
  · simp

end MediaSniff.Xml
