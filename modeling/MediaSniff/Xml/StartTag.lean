/-
# MediaSniff.Xml.StartTag — names and attributes

The text of a start tag is a name and then attributes. Slashes between attributes, and
attributes without a value, are tolerated; a value without quotes runs to the next
white space. A quoted value that is not closed ends the list of attributes.
-/
import MediaSniff.Text.Alphabetic
import MediaSniff.Text.Blank
import MediaSniff.Xml.Markup
import MediaSniff.Xml.Reference

set_option autoImplicit false

namespace MediaSniff.Xml

/-- The name of an element and the text of its attributes. -/
structure StartTag where
  name : List Char
  attributeText : List Char
  deriving DecidableEq, Repr

/-- Whether an element's name may begin with a character. -/
def startsName (c : Char) : Bool := Text.isAlphabetic c || c == '_' || c == ':'

/-- White space or a slash. -/
def isTagBreak (c : Char) : Bool := Text.isBlank c || c == '/'

/-- White space or an equals sign. -/
def endsAttributeName (c : Char) : Bool := Text.isBlank c || c == '='

/-- One attribute, with its value if it has one. -/
structure Attribute where
  name : List Char
  value : Option (List Char)
  deriving DecidableEq, Repr

namespace StartTag

/-- The text of a tag without the slash that closes an empty element. -/
def withoutSlash (text : List Char) : List Char :=
  if text.getLast? = some '/' then text.dropLast else text

/-- Read the text of a tag; one whose name cannot be a name is no element. -/
def ofText? (text : List Char) : Option StartTag :=
  let text := withoutSlash text
  match text.takeWhile (!isTagBreak ·) with
  | [] => none
  | c :: name =>
      if startsName c then
        some { name := c :: name, attributeText := text.dropWhile (!isTagBreak ·) }
      else none

/-- The name behind its last colon. -/
def localName (t : StartTag) : List Char :=
  (t.name.reverse.takeWhile (· ≠ ':')).reverse

end StartTag

/-- The value that follows an equals sign, and the text behind it; none if its quote is
not closed. -/
def valueOf? (cs : List Char) : Option (List Char × List Char) :=
  match cs.dropWhile Text.isBlank with
  | [] => some ([], [])
  | q :: body =>
      if isQuote q then
        match body.dropWhile (· ≠ q) with
        | [] => none
        | _ :: rest => some (body.takeWhile (· ≠ q), rest)
      else
        some ((q :: body).takeWhile (!Text.isBlank ·), (q :: body).dropWhile (!Text.isBlank ·))

/-- The first attribute of a text, and what follows it. -/
def Attribute.first? (cs : List Char) : Option (Attribute × List Char) :=
  match cs.dropWhile isTagBreak with
  | [] => none
  | c :: cs =>
      let name := (c :: cs).takeWhile (!endsAttributeName ·)
      match ((c :: cs).dropWhile (!endsAttributeName ·)).dropWhile Text.isBlank with
      | '=' :: after => (valueOf? after).map fun r => (⟨name, some r.1⟩, r.2)
      | rest => some (⟨name, none⟩, rest)

theorem length_dropWhile_le (p : Char → Bool) (cs : List Char) :
    (cs.dropWhile p).length ≤ cs.length :=
  (List.dropWhile_sublist p).length_le

theorem valueOf?_length_le {cs : List Char} {r : List Char × List Char}
    (h : valueOf? cs = some r) : r.2.length ≤ cs.length := by
  have hcs := length_dropWhile_le Text.isBlank cs
  unfold valueOf? at h
  split at h
  · simp only [Option.some.injEq] at h
    subst h
    simp
  · rename_i q body e
    rw [e] at hcs
    simp only [List.length_cons] at hcs
    split at h
    · split at h
      · simp at h
      · rename_i x rest e'
        simp only [Option.some.injEq] at h
        subst h
        have := length_dropWhile_le (fun x => decide (x ≠ q)) body
        rw [e'] at this
        simp only [List.length_cons] at this ⊢
        omega
    · simp only [Option.some.injEq] at h
      subst h
      have := length_dropWhile_le (!Text.isBlank ·) (q :: body)
      simp only [List.length_cons] at this ⊢
      omega

/-- Reading an attribute uses text up. -/
theorem Attribute.first?_length_lt {cs rest : List Char} {a : Attribute}
    (h : Attribute.first? cs = some (a, rest)) : rest.length < cs.length := by
  have hcs := length_dropWhile_le isTagBreak cs
  unfold Attribute.first? at h
  split at h
  · simp at h
  · rename_i c cs' e
    rw [e] at hcs
    simp only [List.length_cons] at hcs
    have hc : isTagBreak c = false := by
      have := List.head?_dropWhile_not isTagBreak cs
      rw [e] at this
      simpa using this
    have blank : Text.isBlank c = false := by
      simp only [isTagBreak, Bool.or_eq_false_iff] at hc
      exact hc.1
    simp only at h
    split at h
    · rename_i after e'
      obtain ⟨r, hr, e''⟩ := Option.map_eq_some_iff.1 h
      simp only [Prod.mk.injEq] at e''
      obtain ⟨-, rfl⟩ := e''
      have h1 := length_dropWhile_le (!endsAttributeName ·) (c :: cs')
      have h2 := length_dropWhile_le Text.isBlank
        ((c :: cs').dropWhile (!endsAttributeName ·))
      rw [e'] at h2
      have h3 := valueOf?_length_le hr
      simp only [List.length_cons] at h1 h2
      omega
    · rename_i after rest' hne
      simp only [Option.some.injEq, Prod.mk.injEq] at h
      obtain ⟨-, rfl⟩ := h
      by_cases heq : endsAttributeName c = true
      · exfalso
        have hceq : c = '=' := by simpa [endsAttributeName, blank] using heq
        subst hceq
        have hd : ('=' :: cs').dropWhile (!endsAttributeName ·) = '=' :: cs' := by
          simp [endsAttributeName]
        have hb : ('=' :: cs').dropWhile Text.isBlank = '=' :: cs' := by
          simp [blank]
        exact hne cs' (by rw [hd, hb])
      · have h0 : (c :: cs').dropWhile (!endsAttributeName ·) =
            cs'.dropWhile (!endsAttributeName ·) := by
          simp [heq]
        rw [h0]
        have h1 := length_dropWhile_le (!endsAttributeName ·) cs'
        have h2 := length_dropWhile_le Text.isBlank (cs'.dropWhile (!endsAttributeName ·))
        omega

/-- All attributes of a text, up to the first whose quote is not closed. -/
def attributes (cs : List Char) : List Attribute :=
  match _h : Attribute.first? cs with
  | none => []
  | some (a, rest) => a :: attributes rest
termination_by cs.length
decreasing_by exact Attribute.first?_length_lt _h

namespace StartTag

/-- The name of the attribute that declares the default namespace. -/
def namespaceAttribute : List Char := ['x', 'm', 'l', 'n', 's']

/-- The value of the first attribute `xmlns` that has one. -/
def namespaceUri? (t : StartTag) : Option (List Char) :=
  (attributes t.attributeText).findSome? fun a =>
    if a.name = namespaceAttribute then a.value.map unescape else none

end StartTag

end MediaSniff.Xml
