/-
# MediaSniff.Descriptor.Write — writing a database document

Fields stand in a fixed order. What is absent or empty is left out, except for the list
of entries, the tests of a rule, the flags, and the two texts of a root element.
-/
import MediaSniff.Descriptor
import MediaSniff.Json.Print

set_option autoImplicit false

namespace MediaSniff

namespace Descriptor

/-- A member for a value that may be absent. -/
def memberOf {α : Type} (name : String) (write : α → Json) : Option α → List (String × Json)
  | none => []
  | some a => [(name, write a)]

/-- A member for a list that may be empty. -/
def membersOf {α : Type} (name : String) (write : α → Json) : List α → List (String × Json)
  | [] => []
  | as => [(name, .array (as.map write))]

def GlobRule.toJson (rule : GlobRule) : Json :=
  .ofMembers <|
    [("pattern", .ofString rule.pattern)] ++ memberOf "weight" .ofNat rule.weight ++
    [("case-sensitive", .bool rule.caseSensitive)]

mutual

def MatchRule.toJson : MatchRule → Json
  | ⟨offset, kind, value, mask, children⟩ =>
      .ofMembers <|
        [("offset", .ofString offset), ("type", .ofString kind), ("value", .ofString value)] ++
        memberOf "mask" .ofString mask ++
        membersOf "match" id (MatchRule.listToJson children)

def MatchRule.listToJson : List MatchRule → List Json
  | [] => []
  | rule :: rules => rule.toJson :: MatchRule.listToJson rules

end

def MagicRule.toJson (rule : MagicRule) : Json :=
  .ofMembers <|
    memberOf "priority" .ofNat rule.priority ++
    [("match", .array (MatchRule.listToJson rule.tests))]

mutual

def LayoutTest.toJson : LayoutTest → Json
  | ⟨path, kind, matchCase, executable, nonEmpty, mimetype, children⟩ =>
      .ofMembers <|
        [("path", .ofString path)] ++ memberOf "type" .ofString kind ++
        [("match-case", .bool matchCase), ("executable", .bool executable),
          ("non-empty", .bool nonEmpty)] ++
        memberOf "mimetype" .ofString mimetype ++
        membersOf "treematch" id (LayoutTest.listToJson children)

def LayoutTest.listToJson : List LayoutTest → List Json
  | [] => []
  | test :: tests => test.toJson :: LayoutTest.listToJson tests

end

def LayoutRule.toJson (rule : LayoutRule) : Json :=
  .ofMembers <|
    memberOf "priority" .ofNat rule.priority ++
    [("treematch", .array (LayoutTest.listToJson rule.tests))]

def RootElement.toJson (root : RootElement) : Json :=
  .ofMembers [("namespace-uri", .ofString root.namespaceUri),
    ("local-name", .ofString root.localName)]

def Entry.toJson (e : Entry) : Json :=
  .ofMembers <|
    [("type", .ofString e.name)] ++
    (if e.comment.isEmpty then [] else [("comment", .ofString e.comment)]) ++
    memberOf "acronym" .ofString e.acronym ++
    memberOf "expanded-acronym" .ofString e.expandedAcronym ++
    memberOf "icon" .ofString e.icon ++
    memberOf "generic-icon" .ofString e.genericIcon ++
    membersOf "alias" .ofString e.aliases ++
    membersOf "sub-class-of" .ofString e.subClassOf ++
    membersOf "glob" GlobRule.toJson e.globs ++
    membersOf "magic" MagicRule.toJson e.magic ++
    membersOf "treemagic" LayoutRule.toJson e.layouts ++
    membersOf "root-xml" RootElement.toJson e.rootElements

/-- The JSON value of a document. -/
def toJson (d : Descriptor) : Json :=
  .ofMembers [("types", .array (d.entries.map Entry.toJson))]

/-- Write a document. -/
def render (d : Descriptor) : String := d.toJson.render

end Descriptor

end MediaSniff
