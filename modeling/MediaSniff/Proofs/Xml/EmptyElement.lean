/-
# MediaSniff.Proofs.Xml.EmptyElement — documents of one element

The smallest document that shows a root element is the tag of an empty element, with one
attribute if it is in a namespace. It is read as it is written, whatever its name looks like,
if the scanner takes the name for one (`ElementName.Readable`): a table then classifies it by
the namespace, if that is registered, and otherwise by what stands behind the last colon of
the name (`RootTable.classify_document`).
-/
import MediaSniff.Proofs.Xml.Encodings
import MediaSniff.Proofs.Xml.Reading
import MediaSniff.Proofs.Xml.Reference
import MediaSniff.Xml.RootTable
import Mathlib.Data.List.TakeWhile

set_option autoImplicit false

namespace MediaSniff.Xml

/-! ## Characters -/

/-- A value without ampersands names no characters. -/
theorem unescape_of_plain {cs : List Char} (plain : '&' ∉ cs) : unescape cs = cs := by
  simpa [unescape] using unescape_append_of_not_mem plain []

/-- Whether a character may stand in a namespace that is written as it is. -/
def isUriChar (c : Char) : Bool := isPlain c && c != '"' && c != '&'

namespace Written

/-! ## Written documents -/

/-- A name without control characters. Colons may stand anywhere in it. -/
structure ElementName extends Name where
  plain : chars.all isPlain = true

/-- What stands behind the last colon of a name. -/
def ElementName.localPart (n : ElementName) : List Char :=
  (n.chars.reverse.takeWhile (· ≠ ':')).reverse

/-- Whether the scanner takes a name for one: it begins with a letter, an underscore or a
colon, and holds no character that Unicode counts as white space. -/
structure ElementName.Readable (n : ElementName) : Prop where
  starts : n.chars.head?.any startsName = true
  solid : ∀ c ∈ n.chars, Text.isBlank c = false

instance (n : ElementName) : Decidable n.Readable :=
  decidable_of_iff (n.chars.head?.any startsName = true ∧
      n.chars.all (fun c => Text.isBlank c == false) = true)
    ⟨fun all => ⟨all.1, fun c mem => eq_of_beq (List.all_eq_true.1 all.2 c mem)⟩,
      fun all => ⟨all.1, List.all_eq_true.2 fun c mem => beq_iff_eq.2 (all.2 c mem)⟩⟩

/-- A namespace that can be put between quotes as it is. -/
structure Namespace where
  chars : List Char
  proper : chars.all isUriChar = true

theorem Namespace.not_mem (u : Namespace) : '"' ∉ u.chars ∧ '&' ∉ u.chars := by
  constructor <;> intro mem <;> have proper := List.all_eq_true.1 u.proper _ mem <;>
    revert proper <;> decide

/-- The attribute that declares a namespace. -/
def Namespace.attribute (u : Namespace) : Attribute where
  gap := ⟨[' '], rfl⟩
  apart := by decide
  name := ⟨StartTag.namespaceAttribute, by decide, by decide⟩
  beforeEquals := ⟨[], List.all_nil⟩
  afterEquals := ⟨[], List.all_nil⟩
  quote := '"'
  quotes := rfl
  value := u.chars
  unquoted := u.not_mem.1

/-- The declaration of a namespace. The empty one is not declared. -/
def Namespace.declaration (u : Namespace) : List Char :=
  if u.chars = [] then [] else u.attribute.render

/-- The text of the document of one empty element. -/
def ElementName.text (n : ElementName) (u : Namespace) : List Char :=
  '<' :: (n.chars ++ u.declaration ++ ['/', '>'])

/-- The bytes of the document of one empty element. -/
def ElementName.document (n : ElementName) (u : Namespace) : Bytes :=
  Text.utf8 (String.ofList (n.text u))

/-! ## Reading -/

section Reading

variable (n : ElementName) (u : Namespace)

theorem ElementName.balanced_chars : Balanced n.chars :=
  balanced_of_not_mem_delimiters fun c mem => not_mem_delimiters (n.isNameChar_of_mem c mem)

theorem Namespace.balanced_declaration : Balanced u.declaration := by
  unfold declaration
  split
  · exact balanced_nil
  · exact u.attribute.balanced_render

/-- Nothing in the text of a document is left out of what is shown. -/
theorem ElementName.plain_text : (n.text u).all isPlain = true := by
  have declared : u.declaration.all isPlain = true := by
    unfold Namespace.declaration
    split
    · rfl
    · have value : u.chars.all isPlain = true := by
        refine List.all_eq_true.2 fun c mem => ?_
        have proper := List.all_eq_true.1 u.proper c mem
        simp only [isUriChar, Bool.and_eq_true] at proper
        exact proper.1.1
      have front :
          ([' '] ++ StartTag.namespaceAttribute ++ [] ++ ['=', '"']).all isPlain = true := by
        decide
      simpa [Namespace.attribute, Attribute.render, value] using front
  have marks : (['<', '/', '>'] : List Char).all isPlain = true := by decide
  simp only [List.all_cons, List.all_nil, Bool.and_eq_true] at marks
  simp only [text, List.all_cons, List.all_append, List.all_nil, n.plain, declared, marks.1,
    marks.2, Bool.and_self]

/-- The one piece of markup in a document is its tag. -/
theorem ElementName.markups_text :
    markups (n.text u) = [.startTag (n.chars ++ u.declaration ++ ['/'])] := by
  obtain ⟨c, later, spelled⟩ := List.exists_cons_of_ne_nil n.nonempty
  have proper := not_mem_delimiters (n.isNameChar_of_mem c (spelled ▸ List.mem_cons_self))
  have other : c ≠ '?' ∧ c ≠ '!' ∧ c ≠ '/' := by
    refine ⟨?_, ?_, ?_⟩ <;> rintro rfl <;> exact proper (by decide)
  have slash : Balanced ['/'] := balanced_singleton (by decide) (by decide)
  have whole := ((n.balanced_chars.append u.balanced_declaration).append slash).splitTag? []
  have shape : n.text u = '<' :: (n.chars ++ u.declaration ++ ['/'] ++ '>' :: []) := by
    simp [text]
  have none : markups [] = [] := by rw [markups]
  rw [shape, ← none]
  refine markups_of_first?_eq_some ?_
  simp only [spelled, List.cons_append] at whole ⊢
  rw [Markup.first?_startTag other, whole, Option.map_some]

variable {n}

/-- **A tag is read as it is written**, if its name is taken for one. -/
theorem ElementName.ofText?_text (readable : n.Readable) :
    StartTag.ofText? (n.chars ++ u.declaration ++ ['/']) = some ⟨n.chars, u.declaration⟩ := by
  have unslashed : StartTag.withoutSlash (n.chars ++ u.declaration ++ ['/']) =
      n.chars ++ u.declaration := by
    rw [StartTag.withoutSlash, if_pos List.getLast?_concat, List.dropLast_concat]
  have all : ∀ c ∈ n.chars, (!isTagBreak c) = true := fun c mem => by
    rw [isTagBreak_of_isNameChar (n.isNameChar_of_mem c mem) (readable.solid c mem)]
    rfl
  have stop : ∀ c ∈ u.declaration.head?, (!isTagBreak c) = false := by
    intro c head
    unfold Namespace.declaration at head
    split at head
    · cases head
    · obtain rfl : ' ' = c := by simpa [Namespace.attribute, Attribute.render] using head
      decide
  obtain ⟨name, rest⟩ := Text.takeWhile_dropWhile_append all _ stop
  obtain ⟨c, later, spelled⟩ := List.exists_cons_of_ne_nil n.nonempty
  have starts : startsName c = true := by
    have starts := readable.starts
    rwa [spelled] at starts
  rw [StartTag.ofText?]
  simp only [unslashed, name, rest]
  rw [spelled]
  simp only [starts, if_true]

theorem Namespace.namespaceUri?_read (name : List Char) :
    (StartTag.mk name u.declaration).namespaceUri? =
      if u.chars = [] then none else some u.chars := by
  have none : attributes [] = [] := attributes_of_blank (by simp)
  unfold StartTag.namespaceUri? declaration
  split
  · rw [none, List.findSome?_nil]
  · have solid : ∀ c ∈ StartTag.namespaceAttribute, Text.isBlank c = false := by
      simpa using (by decide : (StartTag.namespaceAttribute.all (!Text.isBlank ·)) = true)
    have first := Attribute.first?_render (a := u.attribute) solid []
    rw [List.append_nil] at first
    rw [attributes_of_first?_eq_some first, none, List.findSome?_cons]
    simp [Namespace.attribute, unescape_of_plain u.not_mem.2]

end Reading

end Written

/-! ## Classifying -/

namespace RootTable

open Written (ElementName Namespace)

/-- **A document of one element** is of the type of its namespace, if that is registered, and
otherwise of the type of its local name. If the local name is not registered, it is XML of no
registered kind. -/
theorem classify_document (t : RootTable) {n : ElementName} (readable : n.Readable)
    (u : Namespace) (fits : (n.document u).length ≤ scanLimit) :
    t.classify (n.document u) =
      ((t.ofLocalName? (String.ofList n.localPart)).map fun byName =>
        (t.ofNamespace? (String.ofList u.chars)).getD byName).getD t.sentinels.xml := by
  have shown : markups (decode (n.document u)) =
      [.startTag (n.chars ++ u.declaration ++ ['/'])] := by
    rw [ElementName.document] at fits ⊢
    rw [markups_decode_of_encoding List.mem_cons_self fits, String.toList_ofList,
      List.takeWhile_eq_self_iff.2 (List.all_eq_true.1 (n.plain_text u)), n.markups_text]
  have byUri : ((StartTag.mk n.chars u.declaration).namespaceUri?.bind fun uri =>
      t.ofNamespace? (String.ofList uri)) = t.ofNamespace? (String.ofList u.chars) := by
    rw [u.namespaceUri?_read]
    split
    · rename_i blank
      rw [blank]
      rfl
    · rfl
  rw [classify, shown]
  simp only [ofMarkups, ElementName.ofText?_text u readable, ofElement?, byUri]
  unfold StartTag.localName ElementName.localPart
  split <;> rename_i answer <;> rw [answer] <;> rfl

end RootTable

end MediaSniff.Xml
