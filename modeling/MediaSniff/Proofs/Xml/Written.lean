/-
# MediaSniff.Proofs.Xml.Written — how documents begin

The grammar of the beginning of a document: text, instructions, comments and tags in any
order, and then one more start or empty-element tag (`Opening`). A tag has an optional
namespace prefix, a local name and attributes with quoted values; white space may stand where
XML lets it stand.

The grammar knows nothing of the scanner. It asks of a name only that it holds no white space
and none of the characters that end a name wherever they stand, which leaves room for every
name of XML. Each part carries what makes it one, so whatever is written is well formed.
-/
import MediaSniff.Xml.Decoding
import MediaSniff.Xml.StartTag

set_option autoImplicit false

namespace MediaSniff.Xml.Written

/-! ## Tags -/

/-- The characters of markup, which no name holds. -/
def delimiters : List Char := ['<', '>', '/', '=', '?', '!', '"', '\x27']

/-- Whether a character may stand in a name. -/
def isNameChar (c : Char) : Bool := !c.isWhitespace && !delimiters.contains c

/-- A name, with or without a namespace prefix. -/
structure Name where
  chars : List Char
  nonempty : chars ≠ []
  proper : chars.all isNameChar = true

/-- A name without a colon: a namespace prefix, or a name without its prefix. -/
structure PlainName extends Name where
  colonless : ':' ∉ chars

/-- White space. -/
structure Space where
  chars : List Char
  blank : chars.all Char.isWhitespace = true

theorem isWhitespace_single : [' '].all Char.isWhitespace = true := by decide

/-- A single blank. -/
def Space.single : Space := ⟨[' '], isWhitespace_single⟩

theorem Space.single_ne_nil : Space.single.chars ≠ [] := by decide

/-- No white space. -/
def Space.none : Space := ⟨[], List.all_nil⟩

/-- An attribute with a quoted value, and the white space in front of it. -/
structure Attribute where
  gap : Space
  apart : gap.chars ≠ []
  name : Name
  beforeEquals : Space
  afterEquals : Space
  quote : Char
  quotes : isQuote quote = true
  value : List Char
  unquoted : quote ∉ value

def Attribute.render (a : Attribute) : List Char :=
  a.gap.chars ++ a.name.chars ++ a.beforeEquals.chars ++
    '=' :: (a.afterEquals.chars ++ a.quote :: (a.value ++ [a.quote]))

/-- A start tag or, if it is `closed`, the tag of an empty element. -/
structure Tag where
  space? : Option PlainName
  localName : PlainName
  attributes : List Attribute
  gap : Space
  closed : Bool

namespace Tag

/-- The name with the namespace prefix in front. -/
def name (t : Tag) : List Char :=
  match t.space? with
  | none => t.localName.chars
  | some p => p.chars ++ ':' :: t.localName.chars

/-- What stands behind the name, without the slash that closes an empty element. -/
def attributeText (t : Tag) : List Char := t.attributes.flatMap Attribute.render ++ t.gap.chars

/-- What stands between the angle brackets. -/
def text (t : Tag) : List Char :=
  t.name ++ t.attributeText ++ if t.closed then ['/'] else []

def render (t : Tag) : List Char := '<' :: (t.text ++ ['>'])

/-- Whether none of the names in a tag holds a character that Unicode counts as white space.
There is one that XML lets stand in a name, U+1680. -/
def spaceless (t : Tag) : Bool :=
  (t.name :: t.attributes.map (·.name.chars)).all fun name => !name.any Text.isBlank

/-- Whether the name of a tag begins with a letter or an underscore. XML has names that begin
otherwise. -/
def startsAsElement (t : Tag) : Bool := t.name.head?.any startsName

/-- The value of the first attribute `xmlns`. -/
def namespaceValue? (t : Tag) : Option (List Char) :=
  (t.attributes.find? fun a => a.name.chars = StartTag.namespaceAttribute).map (·.value)

end Tag

/-! ## Openings -/

/-- What may stand in front of the element that is looked for. -/
inductive Piece where
  | text (cs : List Char) (plain : '<' ∉ cs)
  | instruction (cs : List Char) (inside : ¬ ['?', '>'] <:+: cs)
  | comment (cs : List Char) (inside : ¬ ['-', '-', '>'] <:+: cs)
  | endTag (cs : List Char) (inside : '>' ∉ cs)
  | tag (t : Tag)

def Piece.render : Piece → List Char
  | .text cs _ => cs
  | .instruction cs _ => ['<', '?'] ++ cs ++ ['?', '>']
  | .comment cs _ => ['<', '!', '-', '-'] ++ cs ++ ['-', '-', '>']
  | .endTag cs _ => ['<', '/'] ++ cs ++ ['>']
  | .tag t => t.render

def Piece.tag? : Piece → Option Tag
  | .tag t => some t
  | _ => none

/-- The beginning of a document up to the end of a tag. -/
structure Opening where
  pieces : List Piece
  tag : Tag

namespace Opening

/-- The start tags in front of the last one. -/
def earlierTags (o : Opening) : List Tag := o.pieces.filterMap Piece.tag?

def text (o : Opening) : List Char := o.pieces.flatMap Piece.render ++ o.tag.render

/-- The bytes of an opening and of whatever follows it. -/
def document (o : Opening) (tail : Bytes) : Bytes := Text.utf8 (String.ofList o.text) ++ tail

/-- Whether an opening shows as a whole: it holds no control characters but white space, and
it ends within the window. -/
structure Visible (o : Opening) : Prop where
  plain : o.text.all isPlain = true
  fits : (Text.utf8 (String.ofList o.text)).length ≤ scanLimit

end Opening

end MediaSniff.Xml.Written
