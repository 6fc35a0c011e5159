/-
# MediaSniff.Descriptor.Read — reading a database document

A document is JSON of a fixed form, nested at most `greatestDepth` levels where the form
asks for something; what is passed over may be nested as it likes. The readers take the
number of levels that are left, and each array or object uses one up.
-/
import MediaSniff.Descriptor
import MediaSniff.Json.Fields
import MediaSniff.Json.Parse

set_option autoImplicit false

namespace MediaSniff

namespace Descriptor

open Json

/-- How deeply arrays and objects may be nested. -/
def greatestDepth : Nat := 127

/-- Read inside one more array. -/
def elements? {α : Type} (element? : (levels : Nat) → Json → Option α) :
    (levels : Nat) → Json → Option (List α)
  | levels + 1, v => list? (element? levels) v
  | 0, _ => none

def globRule? : (levels : Nat) → Json → Option GlobRule
  | 0, _ => none
  | _ + 1, v => do
      let [pattern, weight, caseSensitive] ←
        fields? ["pattern", "weight", "case-sensitive"] v | none
      some {
        pattern := ← required text? pattern
        weight := ← optional unsigned32? weight
        caseSensitive := ← withDefault false flag? caseSensitive }

mutual

def matchRules? : (levels : Nat) → Json → Option (List MatchRule)
  | 0, _ => none
  | levels + 1, v => list? (matchRule? levels) v

def matchRule? : (levels : Nat) → Json → Option MatchRule
  | 0, _ => none
  | levels + 1, v => do
      let [offset, kind, value, mask, children] ←
        fields? ["offset", "type", "value", "mask", "match"] v | none
      some {
        offset := ← required text? offset
        kind := ← required text? kind
        value := ← required text? value
        mask := ← optional text? mask
        children := ← withDefault [] (matchRules? levels) children }

end

def magicRule? : (levels : Nat) → Json → Option MagicRule
  | 0, _ => none
  | levels + 1, v => do
      let [priority, tests] ← fields? ["priority", "match"] v | none
      some {
        priority := ← optional unsigned32? priority
        tests := ← withDefault [] (matchRules? levels) tests }

mutual

def layoutTests? : (levels : Nat) → Json → Option (List LayoutTest)
  | 0, _ => none
  | levels + 1, v => list? (layoutTest? levels) v

def layoutTest? : (levels : Nat) → Json → Option LayoutTest
  | 0, _ => none
  | levels + 1, v => do
      let [path, kind, matchCase, executable, nonEmpty, mimetype, children] ←
        fields? ["path", "type", "match-case", "executable", "non-empty", "mimetype",
          "treematch"] v | none
      some {
        path := ← required text? path
        kind := ← optional text? kind
        matchCase := ← withDefault false flag? matchCase
        executable := ← withDefault false flag? executable
        nonEmpty := ← withDefault false flag? nonEmpty
        mimetype := ← optional text? mimetype
        children := ← withDefault [] (layoutTests? levels) children }

end

def layoutRule? : (levels : Nat) → Json → Option LayoutRule
  | 0, _ => none
  | levels + 1, v => do
      let [priority, tests] ← fields? ["priority", "treematch"] v | none
      some {
        priority := ← optional unsigned32? priority
        tests := ← withDefault [] (layoutTests? levels) tests }

def rootElement? : (levels : Nat) → Json → Option RootElement
  | 0, _ => none
  | _ + 1, v => do
      let [namespaceUri, localName] ← fields? ["namespace-uri", "local-name"] v | none
      some {
        namespaceUri := ← withDefault "" text? namespaceUri
        localName := ← withDefault "" text? localName }

def entryOf? : (levels : Nat) → Json → Option Entry
  | 0, _ => none
  | levels + 1, v => do
      let [name, comment, acronym, expandedAcronym, icon, genericIcon, aliases, subClassOf,
          globs, magic, layouts, rootElements] ←
        fields? ["type", "comment", "acronym", "expanded-acronym", "icon", "generic-icon",
          "alias", "sub-class-of", "glob", "magic", "treemagic", "root-xml"] v | none
      let texts := elements? (fun _ => text?) levels
      some {
        name := ← required text? name
        comment := ← withDefault "" text? comment
        acronym := ← optional text? acronym
        expandedAcronym := ← optional text? expandedAcronym
        icon := ← optional text? icon
        genericIcon := ← optional text? genericIcon
        aliases := ← withDefault [] texts aliases
        subClassOf := ← withDefault [] texts subClassOf
        globs := ← withDefault [] (elements? globRule? levels) globs
        magic := ← withDefault [] (elements? magicRule? levels) magic
        layouts := ← withDefault [] (elements? layoutRule? levels) layouts
        rootElements := ← withDefault [] (elements? rootElement? levels) rootElements }

/-- Read a document out of its JSON value. -/
def ofJson? (v : Json) : Option Descriptor := do
  let [entries] ← fields? ["types"] v | none
  some { entries := ← withDefault [] (elements? entryOf? (greatestDepth - 1)) entries }

/-- Read a document. -/
def parse? (text : String) : Option Descriptor :=
  (Json.parse? text.toList).bind ofJson?

end Descriptor

end MediaSniff
