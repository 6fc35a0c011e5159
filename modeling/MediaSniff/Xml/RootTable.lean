/-
# MediaSniff.Xml.RootTable — classifying XML by its root element

A database registers root elements by namespace, by local name, or by both. The
registrations are kept in the order of their namespaces; where several share a
namespace, or share a local name, the first speaks for it.

The first element of a document whose local name is registered decides: its `xmlns`
attribute, if that names a registered namespace, and otherwise the local name. A
document with markup but no such element is XML of no registered kind.
-/
import MediaSniff.Sentinels
import MediaSniff.Xml.Decoding
import MediaSniff.Xml.StartTag

set_option autoImplicit false

namespace MediaSniff.Xml

/-- A registered root element; either text may be empty. -/
structure Root where
  namespaceUri : String
  localName : String
  owner : TypeId
  deriving DecidableEq, Repr

/-- The registered root elements of a database, by ascending namespace. -/
structure RootTable where
  roots : List Root
  sentinels : Sentinels

namespace RootTable

def ofList (roots : List Root) (sentinels : Sentinels) : RootTable :=
  { roots := roots.mergeSort fun a b => a.namespaceUri ≤ b.namespaceUri, sentinels }

def size (t : RootTable) : Nat := t.roots.length

def isEmpty (t : RootTable) : Bool := t.roots.isEmpty

/-- The type that a local name speaks for. -/
def ofLocalName? (t : RootTable) (name : String) : Option TypeId :=
  if name.isEmpty then none
  else (t.roots.find? fun r => r.localName == name).map (·.owner)

/-- The type that a namespace speaks for. -/
def ofNamespace? (t : RootTable) (uri : String) : Option TypeId :=
  if uri.isEmpty then none
  else (t.roots.find? fun r => r.namespaceUri == uri).map (·.owner)

/-- The type that an element speaks for, if its local name is registered. -/
def ofElement? (t : RootTable) (e : StartTag) : Option TypeId :=
  (t.ofLocalName? (String.ofList e.localName)).map fun byName =>
    (e.namespaceUri?.bind fun uri => t.ofNamespace? (String.ofList uri)).getD byName

/-- The type that pieces of markup speak for, given what was known before them. -/
def ofMarkups (t : RootTable) (known : TypeId) : List Markup → TypeId
  | [] => known
  | .endTag :: rest => t.ofMarkups known rest
  | .startTag text :: rest =>
      match StartTag.ofText? text with
      | none => t.ofMarkups known rest
      | some element =>
          match t.ofElement? element with
          | some found => found
          | none => t.ofMarkups t.sentinels.xml rest
  | _ :: rest => t.ofMarkups t.sentinels.xml rest

/-- Classify a document by its root element. -/
def classify (t : RootTable) (data : Bytes) : TypeId :=
  t.ofMarkups t.sentinels.unknown (markups (decode data))

end RootTable

end MediaSniff.Xml
