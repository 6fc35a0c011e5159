/-
# MediaSniff.Proofs.Xml.Sliced.Scan — the scan over markup by slices

The scan looks for the next `<`, tells by what follows where the piece ends that begins there, and
goes on with the slice behind that. Ends are counted out: from a mark that is searched for behind
the opening of the piece, or character by character, with the quotes and brackets that are open.

Every turn of the scan uses up a `<` at least (`scanTurn_settles`), so the scan ends, no slice of it
is out of bounds, and its answer is the classification of the document
(`classified_within_bounds`).
-/
import MediaSniff.Proofs.Xml.Markup
import MediaSniff.Proofs.Xml.Sliced.Decoding
import MediaSniff.Proofs.Xml.Sliced.StartTag
import MediaSniff.Xml.RootTable

set_option autoImplicit false

namespace MediaSniff.Xml

open Text (Breach ProperEnd Settles byteLength findMark? findText? loop sliceFrom sliceTo)

namespace Sliced

/-! ## Ends of pieces -/

/-- The offset of the first `>` outside quotes. `quote` is the quote that is open, and `offset` is
where the text begins. -/
def tagEnd? (offset : Nat) (quote : Option Char) : List Char → Option Nat
  | [] => none
  | c :: cs =>
      match quote with
      | some q => tagEnd? (offset + c.utf8Size) (if c = q then none else some q) cs
      | none =>
          if isQuote c then tagEnd? (offset + c.utf8Size) (some c) cs
          else if c = '>' then some offset
          else tagEnd? (offset + c.utf8Size) none cs

/-- The offset behind the first `>` outside quotes and brackets. `depth` counts the open brackets,
and may not come to more than `room`. -/
def bracketsEnd (room offset depth : Nat) (quote : Option Char) :
    List Char → Except Breach (Option Nat)
  | [] => return none
  | c :: cs =>
      match quote with
      | some q =>
          bracketsEnd room (offset + c.utf8Size) depth (if c = q then none else some q) cs
      | none =>
          if isQuote c then bracketsEnd room (offset + c.utf8Size) depth (some c) cs
          else if c = '[' then
            if depth < room then bracketsEnd room (offset + c.utf8Size) (depth + 1) none cs
            else throw .count
          else if c = ']' then bracketsEnd room (offset + c.utf8Size) (depth - 1) none cs
          else if c = '>' && depth = 0 then return some (offset + 1)
          else bracketsEnd room (offset + c.utf8Size) depth none cs

/-- The offset behind a directive, which begins with its exclamation mark. -/
def directiveEnd (cs : List Char) : Except Breach (Option Nat) :=
  match cs with
  | '!' :: '[' :: 'C' :: 'D' :: 'A' :: 'T' :: 'A' :: '[' :: data =>
      return (findText? [']', ']', '>'] data).map (8 + · + 3)
  | _ => bracketsEnd (byteLength cs) 0 0 none cs

/-- A piece that opens with `opening` bytes and runs to a mark, and the text behind it. -/
def pieceTo (m : Markup) (opening : Nat) (mark cs : List Char) :
    Except Breach (Option (Markup × List Char)) := do
  match findText? mark (← sliceFrom opening cs) with
  | none => return none
  | some found => return some (m, ← sliceFrom (opening + found + byteLength mark) cs)

/-- The piece that follows a `<`, and the text behind it. -/
def firstMarkup (cs : List Char) : Except Breach (Option (Markup × List Char)) :=
  match cs with
  | '?' :: _ => pieceTo .instruction 1 ['?', '>'] cs
  | '!' :: '-' :: '-' :: _ => pieceTo .comment 3 ['-', '-', '>'] cs
  | '!' :: _ => do
      match ← directiveEnd cs with
      | none => return none
      | some stop => return some (.directive, ← sliceFrom stop cs)
  | '/' :: _ => pieceTo .endTag 1 ['>'] cs
  | _ =>
      match tagEnd? 0 none cs with
      | none => return none
      | some stop => return some (.startTag (← sliceTo stop cs), ← sliceFrom (stop + 1) cs)

theorem findText?_cases (mark cs : List Char) :
    (findText? mark cs = none ∧ after? mark cs = none) ∨
      ∃ front rest, cs = front ++ (mark ++ rest) ∧ after? mark cs = some rest ∧
        findText? mark cs = some (byteLength front) := by
  induction cs with
  | nil =>
      rw [findText?, after?]
      split
      · rename_i blank
        exact .inr ⟨[], [], by simp [List.isEmpty_iff.1 blank], rfl, rfl⟩
      · exact .inl ⟨rfl, rfl⟩
  | cons c cs ih =>
      rw [findText?, after?]
      split
      · rename_i here
        obtain ⟨rest, whole⟩ := List.isPrefixOf_iff_prefix.1 here
        refine .inr ⟨[], rest, whole.symm, ?_, rfl⟩
        rw [← whole, List.drop_left]
      · rcases ih with ⟨none, absent⟩ | ⟨front, rest, rfl, behind, found⟩
        · exact .inl ⟨by rw [none]; rfl, absent⟩
        · exact .inr ⟨c :: front, rest, rfl, behind, by simp [found]⟩

/-- Unless a character closes the tag, both go on behind it with the same quote. -/
theorem tagEnd?_cons {quote : Option Char} {c : Char} (stays : ¬ (quote = none ∧ c = '>'))
    (offset : Nat) (cs : List Char) :
    ∃ quote', tagEnd? offset quote (c :: cs) = tagEnd? (offset + c.utf8Size) quote' cs ∧
      splitTag? quote (c :: cs) = (splitTag? quote' cs).map fun r => (c :: r.1, r.2) := by
  cases quote with
  | some q => exact ⟨_, rfl, rfl⟩
  | none =>
      have other : c ≠ '>' := fun same => stays ⟨rfl, same⟩
      refine ⟨_, ?_, by rw [splitTag?, if_neg other]⟩
      rw [tagEnd?, if_neg other]
      split <;> rfl

/-- The end of a tag is where the tag is split off. -/
theorem tagEnd?_cases (offset : Nat) (quote : Option Char) (cs : List Char) :
    (tagEnd? offset quote cs = none ∧ splitTag? quote cs = none) ∨
      ∃ text rest, cs = text ++ '>' :: rest ∧ splitTag? quote cs = some (text, rest) ∧
        tagEnd? offset quote cs = some (offset + byteLength text) := by
  induction cs generalizing offset quote with
  | nil => exact .inl ⟨rfl, rfl⟩
  | cons c cs ih =>
      by_cases closes : quote = none ∧ c = '>'
      · obtain ⟨rfl, rfl⟩ := closes
        exact .inr ⟨[], cs, rfl, by simp [splitTag?], by simp [tagEnd?, isQuote]⟩
      obtain ⟨quote', counted, split⟩ := tagEnd?_cons closes offset cs
      rw [counted, split]
      rcases ih (offset + c.utf8Size) quote' with ⟨none, whole⟩ | ⟨text, rest, rfl, whole, found⟩
      · exact .inl ⟨none, by rw [whole, Option.map_none]⟩
      · refine .inr ⟨c :: text, rest, rfl, by rw [whole, Option.map_some], ?_⟩
        rw [found, Text.byteLength_cons, Nat.add_assoc]

/-- Unless a character closes the directive, both go on behind it with the same quote and the same
brackets, and there is room for those that are still to come. -/
theorem bracketsEnd_cons {room depth : Nat} {quote : Option Char} {c : Char} {cs : List Char}
    (fits : depth + byteLength (c :: cs) ≤ room) (stays : ¬ (quote = none ∧ depth = 0 ∧ c = '>'))
    (offset : Nat) :
    ∃ depth' quote', depth' + byteLength cs ≤ room ∧
      bracketsEnd room offset depth quote (c :: cs) =
        bracketsEnd room (offset + c.utf8Size) depth' quote' cs ∧
      afterBrackets? depth quote (c :: cs) = afterBrackets? depth' quote' cs := by
  have size := c.utf8Size_pos
  rw [Text.byteLength_cons] at fits
  cases quote with
  | some q => exact ⟨depth, _, by omega, rfl, rfl⟩
  | none =>
      rw [bracketsEnd, afterBrackets?]
      by_cases quoted : isQuote c = true
      · exact ⟨depth, some c, by omega, by rw [if_pos quoted], by rw [if_pos quoted]⟩
      rw [if_neg quoted, if_neg quoted]
      by_cases opens : c = '['
      · have space : depth < room := by omega
        refine ⟨depth + 1, none, by omega, ?_, by rw [if_pos opens]⟩
        rw [if_pos opens, if_pos space]
      rw [if_neg opens, if_neg opens]
      by_cases shuts : c = ']'
      · exact ⟨depth - 1, none, by omega, by rw [if_pos shuts], by rw [if_pos shuts]⟩
      have other : ¬ (c = '>' && depth = 0) = true := by
        simp only [Bool.and_eq_true, decide_eq_true_eq]
        exact fun ends => stays ⟨rfl, ends.2, ends.1⟩
      rw [if_neg shuts, if_neg shuts, if_neg other, if_neg other]
      exact ⟨depth, none, by omega, rfl, rfl⟩

/-- The end of a directive is where it is left behind, and no more brackets are open in it than
it has bytes. -/
theorem bracketsEnd_cases {room depth : Nat} {cs : List Char}
    (fits : depth + byteLength cs ≤ room) (offset : Nat) (quote : Option Char) :
    (bracketsEnd room offset depth quote cs = .ok none ∧ afterBrackets? depth quote cs = none) ∨
      ∃ front rest, cs = front ++ rest ∧ afterBrackets? depth quote cs = some rest ∧
        bracketsEnd room offset depth quote cs = .ok (some (offset + byteLength front)) := by
  induction cs generalizing offset depth quote with
  | nil => exact .inl ⟨rfl, rfl⟩
  | cons c cs ih =>
      by_cases closes : quote = none ∧ depth = 0 ∧ c = '>'
      · obtain ⟨rfl, rfl, rfl⟩ := closes
        have narrow : byteLength ['>'] = 1 := by decide
        refine .inr ⟨['>'], cs, rfl, by simp [afterBrackets?, isQuote], ?_⟩
        rw [narrow]
        rfl
      obtain ⟨depth', quote', fits', counted, left⟩ := bracketsEnd_cons fits closes offset
      rw [counted, left]
      rcases ih fits' (offset + c.utf8Size) quote' with
        ⟨none, whole⟩ | ⟨front, rest, rfl, whole, found⟩
      · exact .inl ⟨none, whole⟩
      · refine .inr ⟨c :: front, rest, rfl, whole, ?_⟩
        rw [found, Text.byteLength_cons, Nat.add_assoc]

theorem directiveEnd_of_not_section {cs : List Char} (other : ¬ sectionMark <+: cs) :
    directiveEnd ('!' :: cs) = bracketsEnd (byteLength ('!' :: cs)) 1 0 none cs := by
  have narrow : ('!' : Char).utf8Size = 1 := by decide
  unfold directiveEnd
  split
  · rename_i same
    cases same
    exact absurd (List.prefix_append sectionMark _) other
  · rw [bracketsEnd, if_neg (by decide), if_neg (by decide), if_neg (by decide),
      if_neg (by decide), narrow]

theorem directiveEnd_cases (cs : List Char) :
    (directiveEnd ('!' :: cs) = .ok none ∧ afterDirective? cs = none) ∨
      ∃ front rest, cs = front ++ rest ∧ afterDirective? cs = some rest ∧
        directiveEnd ('!' :: cs) = .ok (some (byteLength ('!' :: front))) := by
  by_cases characterData : sectionMark <+: cs
  · obtain ⟨data, rfl⟩ := characterData
    have opening : directiveEnd ('!' :: (sectionMark ++ data)) =
        .ok ((findText? [']', ']', '>'] data).map (8 + · + 3)) := rfl
    have behind : afterDirective? (sectionMark ++ data) = after? [']', ']', '>'] data := rfl
    rw [opening, behind]
    rcases findText?_cases [']', ']', '>'] data with
      ⟨none, absent⟩ | ⟨front, rest, rfl, left, found⟩
    · exact .inl ⟨by rw [none]; rfl, absent⟩
    · have mark : byteLength ('!' :: sectionMark) = 8 := by decide
      have closing : byteLength [']', ']', '>'] = 3 := by decide
      refine .inr ⟨sectionMark ++ front ++ [']', ']', '>'], rest, by simp, left, ?_⟩
      rw [found, ← List.cons_append, ← List.cons_append, Text.byteLength_append,
        Text.byteLength_append, mark, closing]
      rfl
  · rw [directiveEnd_of_not_section characterData, afterDirective?_of_not_section characterData]
    have fits : 0 + byteLength cs ≤ byteLength ('!' :: cs) := by
      rw [Text.byteLength_cons]
      omega
    have narrow : ('!' : Char).utf8Size = 1 := by decide
    simpa only [Text.byteLength_cons, narrow] using bracketsEnd_cases fits 1 none

theorem pieceTo_eq (m : Markup) (opening mark cs : List Char) :
    pieceTo m (byteLength opening) mark (opening ++ cs) =
      .ok ((after? mark cs).map fun rest => (m, rest)) := by
  rw [pieceTo, Text.sliceFrom_append, Outcome.ok_bind]
  rcases findText?_cases mark cs with ⟨none, absent⟩ | ⟨front, rest, rfl, left, found⟩
  · rw [none, absent]
    rfl
  · have behind : sliceFrom (byteLength opening + byteLength front + byteLength mark)
        (opening ++ (front ++ (mark ++ rest))) = .ok rest := by
      simpa [Nat.add_assoc] using Text.sliceFrom_append (opening ++ front ++ mark) rest
    rw [found, left]
    simp only [behind, Outcome.ok_bind]
    rfl

theorem firstMarkup_directive {cs : List Char} (other : ¬ ['-', '-'] <+: cs) :
    firstMarkup ('!' :: cs) = (do
      match ← directiveEnd ('!' :: cs) with
      | none => return none
      | some stop => return some (.directive, ← sliceFrom stop ('!' :: cs))) := by
  unfold firstMarkup
  split <;> rename_i same
  · cases same
  · cases same
    exact absurd (List.prefix_append ['-', '-'] _) other
  · cases same
    rfl
  · cases same
  · rename_i directive
    exact absurd rfl (directive cs)

theorem firstMarkup_startTag {c : Char} (other : c ≠ '?' ∧ c ≠ '!' ∧ c ≠ '/') (cs : List Char) :
    firstMarkup (c :: cs) = (match tagEnd? 0 none (c :: cs) with
      | none => return none
      | some stop => do
          let tag ← sliceTo stop (c :: cs)
          return some (.startTag tag, ← sliceFrom (stop + 1) (c :: cs))) := by
  unfold firstMarkup
  split <;> rename_i same
  · cases same
    exact absurd rfl other.1
  · cases same
    exact absurd rfl other.2.1
  · cases same
    exact absurd rfl other.2.1
  · cases same
    exact absurd rfl other.2.2
  · rfl

/-- The first piece of a text is sliced out, and the text behind it. -/
theorem firstMarkup_eq (cs : List Char) : firstMarkup cs = .ok (Markup.first? cs) := by
  cases cs with
  | nil => rfl
  | cons c cs =>
      by_cases instruction : c = '?'
      · subst instruction
        exact pieceTo_eq .instruction ['?'] ['?', '>'] cs
      by_cases endTag : c = '/'
      · subst endTag
        exact pieceTo_eq .endTag ['/'] ['>'] cs
      by_cases declaration : c = '!'
      · subst declaration
        by_cases comment : ['-', '-'] <+: cs
        · obtain ⟨cs, rfl⟩ := comment
          exact pieceTo_eq .comment ['!', '-', '-'] ['-', '-', '>'] cs
        · rw [Markup.first?_directive comment, firstMarkup_directive comment]
          rcases directiveEnd_cases cs with ⟨none, absent⟩ | ⟨front, rest, rfl, left, found⟩
          · rw [none, absent]
            rfl
          · have behind : sliceFrom (byteLength ('!' :: front)) ('!' :: (front ++ rest)) =
                .ok rest := Text.sliceFrom_append ('!' :: front) rest
            rw [found, left, Outcome.ok_bind]
            simp only [behind, Outcome.ok_bind]
            rfl
      · have other : c ≠ '?' ∧ c ≠ '!' ∧ c ≠ '/' := ⟨instruction, declaration, endTag⟩
        rw [Markup.first?_startTag other, firstMarkup_startTag other]
        rcases tagEnd?_cases 0 none (c :: cs) with
          ⟨none, whole⟩ | ⟨text, rest, spelled, whole, found⟩
        · rw [none, whole]
          rfl
        · have narrow : ('>' : Char).utf8Size = 1 := by decide
          rw [found, whole, Nat.zero_add]
          simp only [spelled, Text.sliceTo_append, Text.sliceFrom_append_cons narrow,
            Outcome.ok_bind]
          rfl

end Sliced

theorem after?_suffix {mark cs rest : List Char} (found : after? mark cs = some rest) :
    rest <:+ cs := by
  rcases Sliced.findText?_cases mark cs with ⟨-, absent⟩ | ⟨front, _, rfl, left, -⟩
  · rw [absent] at found
    cases found
  · rw [left] at found
    cases found
    exact ⟨front ++ mark, List.append_assoc _ _ _⟩

theorem afterDirective?_suffix {cs rest : List Char} (found : afterDirective? cs = some rest) :
    rest <:+ cs := by
  rcases Sliced.directiveEnd_cases cs with ⟨-, absent⟩ | ⟨front, _, rfl, left, -⟩
  · rw [absent] at found
    cases found
  · rw [left] at found
    cases found
    exact List.suffix_append front rest

theorem splitTag?_suffix {quote : Option Char} {cs text rest : List Char}
    (found : splitTag? quote cs = some (text, rest)) : rest <:+ cs := by
  rcases Sliced.tagEnd?_cases 0 quote cs with ⟨-, whole⟩ | ⟨_, _, rfl, whole, -⟩
  · rw [whole] at found
    cases found
  · rw [whole] at found
    cases found
    exact (List.suffix_cons '>' rest).trans (List.suffix_append text _)

/-- What follows a piece of markup is what the text ends with. -/
theorem Markup.first?_suffix {cs rest : List Char} {m : Markup}
    (found : Markup.first? cs = some (m, rest)) : rest <:+ cs := by
  unfold Markup.first? at found
  split at found <;> obtain ⟨r, ends, same⟩ := Option.map_eq_some_iff.1 found <;> cases same
  · exact (after?_suffix ends).trans (List.suffix_cons _ _)
  · exact (after?_suffix ends).trans (List.suffix_append ['!', '-', '-'] _)
  · exact (afterDirective?_suffix ends).trans (List.suffix_cons _ _)
  · exact (after?_suffix ends).trans (List.suffix_cons _ _)
  · exact splitTag?_suffix ends

namespace Sliced

/-! ## The scan -/

/-- The type that an element speaks for, if its local name is registered. -/
def elementType (t : RootTable) (element : StartTag) : Except Breach (Option TypeId) :=
  match t.ofLocalName? (String.ofList element.localName) with
  | none => return none
  | some byName => do
      let uri ← namespaceUri element
      return some ((uri.bind fun uri => t.ofNamespace? (String.ofList uri)).getD byName)

/-- What is known behind a piece of markup, given what is known before it, or the type that it
speaks for. -/
def readPiece (t : RootTable) (known : TypeId) : Markup → Except Breach (TypeId ⊕ TypeId)
  | .endTag => return .inl known
  | .startTag tag => do
      match ← startTag tag with
      | none => return .inl known
      | some element =>
          match ← elementType t element with
          | none => return .inl t.sentinels.xml
          | some found => return .inr found
  | _ => return .inl t.sentinels.xml

/-- Look at the first piece of markup that is left, with the type that is known before it. A
registered element ends the scan, and so does the end of the text. -/
def scanTurn (t : RootTable) :
    TypeId × List Char → Except Breach ((TypeId × List Char) ⊕ TypeId)
  | (known, text) =>
      match findMark? '<' text with
      | none => return .inr known
      | some opening => do
          match ← firstMarkup (← sliceFrom (opening + 1) text) with
          | none => return .inr known
          | some (m, rest) =>
              match ← readPiece t known m with
              | .inl known => return .inl (known, rest)
              | .inr found => return .inr found

/-- Classify a document by its root element. -/
def classify (t : RootTable) (data : Bytes) : Except Breach TypeId := do
  let text ← decode data
  loop Prod.snd (scanTurn t) (t.sentinels.unknown, text)

theorem elementType_eq (t : RootTable) (element : StartTag) :
    elementType t element = .ok (t.ofElement? element) := by
  rw [elementType, RootTable.ofElement?]
  cases t.ofLocalName? (String.ofList element.localName) with
  | none => rfl
  | some byName =>
      simp only [namespaceUri_eq, Outcome.ok_bind]
      rfl

theorem readPiece_cases (t : RootTable) (known : TypeId) (m : Markup) :
    (∃ known', readPiece t known m = .ok (.inl known') ∧
        ∀ ms, t.ofMarkups known' ms = t.ofMarkups known (m :: ms)) ∨
      ∃ found, readPiece t known m = .ok (.inr found) ∧
        ∀ ms, found = t.ofMarkups known (m :: ms) := by
  cases m with
  | instruction => exact .inl ⟨_, rfl, fun _ => rfl⟩
  | comment => exact .inl ⟨_, rfl, fun _ => rfl⟩
  | directive => exact .inl ⟨_, rfl, fun _ => rfl⟩
  | endTag => exact .inl ⟨_, rfl, fun _ => rfl⟩
  | startTag tag =>
      simp only [readPiece, startTag_eq, Outcome.ok_bind, RootTable.ofMarkups]
      cases StartTag.ofText? tag with
      | none => exact .inl ⟨known, rfl, fun _ => rfl⟩
      | some element =>
          simp only [elementType_eq, Outcome.ok_bind]
          cases t.ofElement? element with
          | none => exact .inl ⟨t.sentinels.xml, rfl, fun _ => rfl⟩
          | some found => exact .inr ⟨found, rfl, fun _ => rfl⟩

/-- A turn looks at what follows the first `<`. -/
theorem scanTurn_append {text cs : List Char}
    (found : findMark? '<' (text ++ '<' :: cs) = some (byteLength text)) (t : RootTable)
    (known : TypeId) :
    scanTurn t (known, text ++ '<' :: cs) = (do
      match Markup.first? cs with
      | none => return .inr known
      | some (m, rest) =>
          match ← readPiece t known m with
          | .inl known => return .inl (known, rest)
          | .inr found => return .inr found) := by
  have narrow : ('<' : Char).utf8Size = 1 := by decide
  rw [scanTurn, found]
  simp only [Text.sliceFrom_append_cons narrow, firstMarkup_eq, Outcome.ok_bind]

/-- **A turn uses up a `<` at least**, and what the rest of the document speaks for stays the
same. -/
theorem scanTurn_settles (t : RootTable) (s : TypeId × List Char) :
    Settles Prod.snd (scanTurn t) (fun s => t.ofMarkups s.1 (markups s.2)) s := by
  obtain ⟨known, text⟩ := s
  rcases Text.findMark?_cases '<' text with ⟨none, absent⟩ | ⟨plain, later, rfl, absent, found⟩
  · apply Settles.ends
    have nothing : markups text = [] := by
      simpa [markups] using markups_text_append absent []
    rw [scanTurn, none, nothing]
    rfl
  · have pieces := markups_text_append absent ('<' :: later)
    have turn := scanTurn_append found t known
    cases first : Markup.first? later with
    | none =>
        rw [markups_of_first?_eq_none first] at pieces
        rw [first] at turn
        exact .ends (by rw [turn, pieces]; rfl)
    | some r =>
        obtain ⟨m, rest⟩ := r
        rw [markups_of_first?_eq_some first] at pieces
        rw [first] at turn
        rcases readPiece_cases t known m with ⟨known', read, same⟩ | ⟨found, read, same⟩
        · have shorter : ProperEnd rest (plain ++ '<' :: later) := by
            obtain ⟨piece, rfl⟩ := Markup.first?_suffix first
            have nonempty : plain ++ '<' :: piece ≠ [] := by simp
            simpa using ProperEnd.of_append nonempty rest
          simp only [read, Outcome.ok_bind] at turn
          exact .goesOn turn shorter (by rw [pieces, same])
        · simp only [read, Outcome.ok_bind] at turn
          exact .ends (by rw [turn, pieces, ← same]; rfl)

/-- The scan by slices classifies every document as the scan without offsets does. -/
theorem classify_eq (t : RootTable) (data : Bytes) : classify t data = .ok (t.classify data) := by
  rw [classify, decode_eq, Outcome.ok_bind]
  exact Text.loop_eq (scanTurn_settles t) (t.sentinels.unknown, Xml.decode data)

/-- **The scan ends, and none of its slices is out of bounds.** Whatever the bytes are, it breaks no
rule and classifies the document, and no offset that it reckons with comes to more than twice the
scan limit. From every text that is left, whether or not some document leaves it, a turn of each of
the three loops breaks no rule either, and leaves a proper end of that text if it is not the last:
so it is with the pieces of markup, with the attributes of an element and with the references of a
value. -/
theorem classified_within_bounds (t : RootTable) (data : Bytes) :
    classify t data = .ok (t.classify data) ∧
      byteLength (Xml.decode data) ≤ 2 * scanLimit ∧
      (∀ s, Settles Prod.snd (scanTurn t) (fun s => t.ofMarkups s.1 (markups s.2)) s) ∧
      (∀ text, Settles id attributeTurn namespaceIn text) ∧
      ∀ s, Settles Prod.snd referenceTurn (fun s => s.1 ++ Xml.unescape s.2) s :=
  ⟨classify_eq t data, byteLength_decode_le data, scanTurn_settles t, attributeTurn_settles,
    referenceTurn_settles⟩

end Sliced

end MediaSniff.Xml
