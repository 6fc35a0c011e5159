/-
# MediaSniff.Proofs.Xml.Sliced.StartTag — names, attributes and references by slices

The text of a start tag is taken apart in place: the name ends at the first white space or slash,
an attribute's name at white space or an equals sign, a value at its quote or at white space, and
a reference at the next semicolon. Each part is sliced out between the offsets of what is found.

Two loops run over what is left. The one over the attributes uses up at least a character of each,
also where an attribute has no name, no value or no quotes (`attributeTurn_settles`); the one over
the references uses up at least the ampersand (`referenceTurn_settles`). So both end, and what they
come to is what is read without offsets (`Sliced.namespaceUri_eq`, `Sliced.unescape_eq`).
-/
import MediaSniff.Proofs.Text.Slices
import MediaSniff.Proofs.Xml.Reading
import MediaSniff.Proofs.Xml.Reference

set_option autoImplicit false

namespace MediaSniff.Xml

open Text (Breach ProperEnd Settles byteLength findMark? loop runEnd slice sliceFrom sliceTo)

namespace Sliced

/-! ## References -/

/-- The character that an ampersand at the front of a text refers to, and the offset behind the
reference. -/
def reference (cs : List Char) : Except Breach (Option (Char × Nat)) :=
  match findMark? ';' cs with
  | none => return none
  | some semicolon => do
      let name ← slice 1 semicolon cs
      return (namedChar? name).map fun c => (c, semicolon + 1)

/-- Put in the first reference of a text that is left, behind what has been put out. -/
def referenceTurn :
    List Char × List Char → Except Breach ((List Char × List Char) ⊕ List Char)
  | (out, rest) =>
      match findMark? '&' rest with
      | none => return .inr (out ++ rest)
      | some ampersand => do
          let plain ← sliceTo ampersand rest
          let rest ← sliceFrom ampersand rest
          match ← reference rest with
          | some (c, behind) => return .inl (out ++ plain ++ [c], ← sliceFrom behind rest)
          | none => return .inl (out ++ plain ++ ['&'], ← sliceFrom 1 rest)

/-- Put in the characters that a value refers to. -/
def unescape (value : List Char) : Except Breach (List Char) :=
  loop Prod.snd referenceTurn ([], value)

theorem utf8Size_semicolon : (';' : Char).utf8Size = 1 := by decide

theorem utf8Size_ampersand : ('&' : Char).utf8Size = 1 := by decide

/-- A reference is sliced out up to the offset behind its semicolon. -/
theorem reference_cases (cs : List Char) :
    (reference ('&' :: cs) = .ok none ∧ reference? cs = none) ∨
      ∃ c front rest, cs = front ++ rest ∧ reference? cs = some (c, rest) ∧
        reference ('&' :: cs) = .ok (some (c, byteLength ('&' :: front))) := by
  have behind : findMark? ';' ('&' :: cs) = (findMark? ';' cs).map (1 + ·) := by
    rw [findMark?, Text.findChar?, if_neg (by decide), utf8Size_ampersand, findMark?]
  rw [reference, behind]
  rcases Text.findMark?_cases ';' cs with ⟨none, absent⟩ | ⟨name, rest, rfl, inside, found⟩
  · rw [none, reference?_of_not_mem absent]
    exact .inl ⟨rfl, rfl⟩
  · have sliced : slice 1 (1 + byteLength name) ('&' :: (name ++ ';' :: rest)) = .ok name := by
      simpa [utf8Size_ampersand] using Text.slice_append ['&'] name (';' :: rest)
    rw [found, reference?_append inside]
    simp only [Option.map_some, sliced, Outcome.ok_bind]
    cases namedChar? name with
    | none => exact .inl ⟨rfl, rfl⟩
    | some c =>
        have long : byteLength ('&' :: (name ++ [';'])) = 1 + byteLength name + 1 := by
          simp [utf8Size_ampersand, utf8Size_semicolon, Nat.add_assoc]
        refine .inr ⟨c, name ++ [';'], rest, by simp, rfl, ?_⟩
        rw [long]
        rfl

/-- **A turn uses up an ampersand at least**, and what is put out in the end stays the same. -/
theorem referenceTurn_settles (s : List Char × List Char) :
    Settles Prod.snd referenceTurn (fun s => s.1 ++ Xml.unescape s.2) s := by
  obtain ⟨out, rest⟩ := s
  rcases Text.findMark?_cases '&' rest with ⟨none, absent⟩ | ⟨plain, later, rfl, absent, found⟩
  · apply Settles.ends
    have kept : Xml.unescape rest = rest := by
      simpa [Xml.unescape] using unescape_append_of_not_mem absent []
    rw [referenceTurn, none, kept]
    rfl
  · have unescaped := unescape_append_of_not_mem absent ('&' :: later)
    have ends (front rest : List Char) : ProperEnd rest (plain ++ '&' :: (front ++ rest)) := by
      have nonempty : plain ++ '&' :: front ≠ [] := by simp
      simpa using ProperEnd.of_append nonempty rest
    rcases reference_cases later with ⟨none, refersNot⟩ | ⟨c, front, rest, rfl, refers, sliced⟩
    · have behind : sliceFrom 1 ('&' :: later) = .ok later :=
        Text.sliceFrom_append_cons utf8Size_ampersand [] later
      have turn : referenceTurn (out, plain ++ '&' :: later) =
          .ok (.inl (out ++ plain ++ ['&'], later)) := by
        rw [referenceTurn, found]
        simp only [Text.sliceTo_append, Text.sliceFrom_append, none, behind, Outcome.ok_bind]
        rfl
      refine .goesOn turn (ends [] later) ?_
      simp [unescaped, unescape_of_reference?_eq_none refersNot]
    · have behind : sliceFrom (byteLength ('&' :: front)) ('&' :: (front ++ rest)) = .ok rest :=
        Text.sliceFrom_append ('&' :: front) rest
      have turn : referenceTurn (out, plain ++ '&' :: (front ++ rest)) =
          .ok (.inl (out ++ plain ++ [c], rest)) := by
        rw [referenceTurn, found]
        simp only [Text.sliceTo_append, Text.sliceFrom_append, sliced, behind, Outcome.ok_bind]
        rfl
      refine .goesOn turn (ends front rest) ?_
      simp [unescaped, unescape_of_reference?_eq_some refers]

theorem unescape_eq (value : List Char) : unescape value = .ok (Xml.unescape value) :=
  Text.loop_eq referenceTurn_settles ([], value)

/-! ## Attributes -/

/-- The value that follows an equals sign, and the text behind it; none if its quote is not
closed. -/
def valueOf (cs : List Char) : Except Breach (Option (List Char × List Char)) :=
  match cs.dropWhile Text.isBlank with
  | [] => return some ([], [])
  | q :: cs =>
      if isQuote q then do
        let body ← sliceFrom 1 (q :: cs)
        match findMark? q body with
        | none => return none
        | some close => return some (← sliceTo close body, ← sliceFrom (close + 1) body)
      else do
        let stop := runEnd Text.isBlank (q :: cs)
        return some (← sliceTo stop (q :: cs), ← sliceFrom stop (q :: cs))

/-- The first attribute of a text, and what follows it. -/
def firstAttribute (cs : List Char) : Except Breach (Option (Attribute × List Char)) :=
  match cs.dropWhile isTagBreak with
  | [] => return none
  | c :: cs => do
      let stop := runEnd endsAttributeName (c :: cs)
      let name ← sliceTo stop (c :: cs)
      let behind ← sliceFrom stop (c :: cs)
      match behind.dropWhile Text.isBlank with
      | '=' :: after => return (← valueOf after).map fun r => (⟨name, some r.1⟩, r.2)
      | rest => return some (⟨name, none⟩, rest)

/-- Look at the first attribute that is left: an `xmlns` with a value ends the search. -/
def attributeTurn (rest : List Char) : Except Breach (List Char ⊕ Option (List Char)) := do
  match ← firstAttribute rest with
  | none => return .inr none
  | some (⟨name, some value⟩, rest) =>
      if name = StartTag.namespaceAttribute then return .inr (some (← unescape value))
      else return .inl rest
  | some (⟨_, none⟩, rest) => return .inl rest

/-- The value of the first attribute `xmlns` that has one. -/
def namespaceUri (t : StartTag) : Except Breach (Option (List Char)) :=
  loop id attributeTurn t.attributeText

theorem utf8Size_of_isQuote {q : Char} (quote : isQuote q = true) : q.utf8Size = 1 := by
  rcases Written.isQuote_iff.1 quote with rfl | rfl <;> decide

theorem valueOf_eq (cs : List Char) : valueOf cs = .ok (valueOf? cs) := by
  rw [valueOf, valueOf?]
  cases cs.dropWhile Text.isBlank with
  | nil => rfl
  | cons q body =>
      simp only
      split
      · rename_i quote
        have narrow := utf8Size_of_isQuote quote
        have opened : sliceFrom 1 (q :: body) = .ok body :=
          Text.sliceFrom_append_cons narrow [] body
        rw [opened, Outcome.ok_bind]
        rcases Text.findMark?_cases q body with ⟨none, absent⟩ | ⟨value, rest, rfl, inside, found⟩
        · have nothing := (Text.takeWhile_dropWhile_mark absent [] nofun).2
          rw [List.append_nil] at nothing
          rw [none, nothing]
          rfl
        · obtain ⟨taken, behind⟩ := Text.takeWhile_dropWhile_mark inside (q :: rest) (by simp)
          rw [found, taken, behind]
          simp only [Text.sliceTo_append, Text.sliceFrom_append_cons narrow, Outcome.ok_bind]
          rfl
      · have run := Text.slice_runEnd Text.isBlank (q :: body)
        rw [run.1, run.2]
        rfl

theorem firstAttribute_eq (cs : List Char) : firstAttribute cs = .ok (Attribute.first? cs) := by
  rw [firstAttribute, Attribute.first?]
  cases cs.dropWhile isTagBreak with
  | nil => rfl
  | cons c cs =>
      have run := Text.slice_runEnd endsAttributeName (c :: cs)
      simp only [run.1, run.2, Outcome.ok_bind]
      generalize ((c :: cs).dropWhile (!endsAttributeName ·)).dropWhile Text.isBlank = behind
      cases behind with
      | nil => rfl
      | cons d after =>
          by_cases equals : d = '='
          · subst equals
            simp only [valueOf_eq]
            rfl
          · simp [equals]
            rfl

end Sliced

theorem valueOf?_suffix {cs : List Char} {r : List Char × List Char} (read : valueOf? cs = some r) :
    r.2 <:+ cs := by
  have blank : cs.dropWhile Text.isBlank <:+ cs := List.dropWhile_suffix _
  rw [valueOf?] at read
  split at read
  · cases read
    exact List.nil_suffix
  · rename_i q body opened
    rw [opened] at blank
    split at read
    · split at read
      · cases read
      · rename_i closed
        cases read
        have rest := List.dropWhile_suffix (l := body) (· ≠ q)
        rw [closed] at rest
        exact (List.suffix_cons _ _).trans (rest.trans ((List.suffix_cons q body).trans blank))
    · cases read
      exact (List.dropWhile_suffix _).trans blank

/-- What follows an attribute is what the text ends with. -/
theorem Attribute.first?_suffix {cs rest : List Char} {a : Attribute}
    (read : Attribute.first? cs = some (a, rest)) : rest <:+ cs := by
  have breaks : cs.dropWhile isTagBreak <:+ cs := List.dropWhile_suffix _
  rw [Attribute.first?] at read
  split at read
  · cases read
  · rename_i c text opened
    rw [opened] at breaks
    have behind : (((c :: text).dropWhile (!endsAttributeName ·)).dropWhile Text.isBlank) <:+ cs :=
      (List.dropWhile_suffix _).trans ((List.dropWhile_suffix _).trans breaks)
    simp only at read
    split at read
    · rename_i after equals
      obtain ⟨r, value, same⟩ := Option.map_eq_some_iff.1 read
      cases same
      rw [equals] at behind
      exact (valueOf?_suffix value).trans ((List.suffix_cons '=' after).trans behind)
    · cases read
      exact behind

namespace Sliced

/-- What the attributes in a text say of the namespace. -/
def namespaceIn (text : List Char) : Option (List Char) := StartTag.namespaceUri? ⟨[], text⟩

/-- **A turn uses up an attribute**, whatever it lacks, and what the rest says of the namespace
stays the same. -/
theorem attributeTurn_settles (text : List Char) :
    Settles id attributeTurn namespaceIn text := by
  cases first : Attribute.first? text with
  | none =>
      apply Settles.ends
      have nothing : namespaceIn text = none := by
        rw [namespaceIn, StartTag.namespaceUri?, Written.attributes_of_first?_eq_none first]
        rfl
      rw [attributeTurn, firstAttribute_eq, first, nothing]
      rfl
  | some r =>
      obtain ⟨⟨name, value⟩, rest⟩ := r
      have shorter : ProperEnd rest text :=
        ⟨Attribute.first?_suffix first, Attribute.first?_length_lt first⟩
      have attributes := Written.attributes_of_first?_eq_some first
      cases value with
      | none =>
          refine .goesOn ?_ shorter (by simp [namespaceIn, StartTag.namespaceUri?, attributes])
          rw [attributeTurn, firstAttribute_eq, first]
          rfl
      | some v =>
          by_cases declares : name = StartTag.namespaceAttribute
          · apply Settles.ends
            have said : namespaceIn text = some (Xml.unescape v) := by
              simp [namespaceIn, StartTag.namespaceUri?, attributes, declares]
            rw [attributeTurn, firstAttribute_eq, first, Outcome.ok_bind, said]
            simp only [if_pos declares, unescape_eq, Outcome.ok_bind]
            rfl
          · have said : namespaceIn rest = namespaceIn text := by
              simp [namespaceIn, StartTag.namespaceUri?, attributes, declares]
            refine .goesOn ?_ shorter said
            rw [attributeTurn, firstAttribute_eq, first, Outcome.ok_bind]
            simp only [if_neg declares]
            rfl

theorem namespaceUri_eq (t : StartTag) : namespaceUri t = .ok t.namespaceUri? :=
  Text.loop_eq attributeTurn_settles t.attributeText

/-! ## Tags -/

/-- Read the text of a tag; one whose name cannot be a name is no element. -/
def startTag (text : List Char) : Except Breach (Option StartTag) := do
  let text := StartTag.withoutSlash text
  let stop := runEnd isTagBreak text
  match ← sliceTo stop text with
  | [] => return none
  | c :: name =>
      if startsName c then
        return some { name := c :: name, attributeText := ← sliceFrom stop text }
      else return none

theorem startTag_eq (text : List Char) : startTag text = .ok (StartTag.ofText? text) := by
  have run := Text.slice_runEnd isTagBreak (StartTag.withoutSlash text)
  simp only [startTag, run.1, run.2, Outcome.ok_bind, StartTag.ofText?]
  generalize (StartTag.withoutSlash text).takeWhile (!isTagBreak ·) = name
  cases name with
  | nil => rfl
  | cons c name =>
      simp only
      split <;> rfl

end Sliced

end MediaSniff.Xml
