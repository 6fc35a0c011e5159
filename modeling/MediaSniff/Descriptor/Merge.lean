/-
# MediaSniff.Descriptor.Merge — all that is said about each type

A document may speak of a type in several entries. Merging leaves one entry for each
type, in the order in which the types first appear. Of a text that can be given once,
the first that is not empty stands; names are united; of filename rules with one pattern
and one treatment of case, a single one is kept, under the greatest weight given for it;
all other rules are put behind one another.
-/
import MediaSniff.Descriptor
import MediaSniff.Grouping
import MediaSniff.LoadError
import MediaSniff.Text.Blank

set_option autoImplicit false

namespace MediaSniff

namespace Descriptor

/-- The categories of media types. -/
def categories : List String :=
  ["all", "uri", "print", "text", "application", "image", "audio", "inode", "video",
    "message", "model", "multipart", "x-content", "x-epoc", "x-scheme-handler", "font"]

/-- Whether a text is the name of a media type: a known category, one slash, and a
subtype, without white space and control characters. -/
def isMediaType (name : String) : Bool :=
  let cs := name.toList
  match cs.dropWhile (· ≠ '/') with
  | [] => false
  | _ :: subtype =>
      categories.contains (String.ofList (cs.takeWhile (· ≠ '/'))) &&
        !subtype.isEmpty && !subtype.contains '/' &&
        !cs.any fun c => Text.isBlank c || Text.isControl c

/-- The weight of a filename rule that states none. -/
def defaultWeight : Nat := 50

/-- The weight of a filename rule. -/
def GlobRule.effectiveWeight (rule : GlobRule) : Nat := rule.weight.getD defaultWeight

/-- Whether two filename rules are one but for their weights. -/
def GlobRule.same (a b : GlobRule) : Bool :=
  a.pattern == b.pattern && a.caseSensitive == b.caseSensitive

/-- Add a filename rule to others. -/
def addGlob : List GlobRule → GlobRule → List GlobRule
  | [], rule => [rule]
  | known :: rules, rule =>
      if known.same rule then
        if known.effectiveWeight < rule.effectiveWeight then
          { known with weight := rule.weight } :: rules
        else known :: rules
      else known :: addGlob rules rule

/-- One entry for all that several entries say about the type of a name. -/
def Entry.combine (name : String) (entries : List Entry) : Entry where
  name := name
  comment := firstText (entries.map (·.comment))
  acronym := firstText? (entries.filterMap (·.acronym))
  expandedAcronym := firstText? (entries.filterMap (·.expandedAcronym))
  icon := firstText? (entries.filterMap (·.icon))
  genericIcon := firstText? (entries.filterMap (·.genericIcon))
  aliases := distinct (entries.flatMap (·.aliases))
  subClassOf := distinct (entries.flatMap (·.subClassOf))
  globs := (entries.flatMap (·.globs)).foldl addGlob []
  magic := entries.flatMap (·.magic)
  layouts := entries.flatMap (·.layouts)
  rootElements := entries.flatMap (·.rootElements)

/-- One entry for each type. The first name that is no media type is refused. -/
def merge (entries : List Entry) : Except LoadError (List Entry) :=
  match entries.find? fun e => !isMediaType e.name with
  | some e => .error (.invalidMediaType e.name)
  | none => .ok ((groups (·.name) entries).map fun group => .combine group.1 group.2)

end Descriptor

end MediaSniff
