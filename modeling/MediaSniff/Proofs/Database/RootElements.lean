/-
# MediaSniff.Proofs.Database.RootElements — which registrations take effect

No two root elements of a document are the same, but they may share a half. Those that share a
namespace are told by it alone: whatever element stands in it, the first of their types is
meant (`FirstIn`). A root element in no namespace has its local name to itself, since none that
shares it stands in front of it.

So the document of one element that is registered is of the type that it is registered for, if
that type is the first in the namespace (`classifyXml_document`). A namespace that is registered
without a local name asks for an element whose name is registered besides; any other is XML of
no registered kind, and what the scanner does not take for a name is no element at all
(`registrations_overlooked`).
-/
import MediaSniff.Proofs.Database.Faithful
import MediaSniff.Proofs.Database.XmlWindow
import MediaSniff.Proofs.Xml.EmptyElement
import MediaSniff.Proofs.Xml.Recognition

set_option autoImplicit false

namespace MediaSniff

open Xml (Root RootTable SpeaksFor)
open Xml.Written (ElementName)

/-! ## Simple root elements -/

/-- Whether a character may stand in a simple namespace. -/
def isAddressChar (c : Char) : Bool := c.isAlphanum || c == ':' || c == '/' || c == '.'

theorem isUriChar_of_isAddressChar {c : Char} (address : isAddressChar c = true) :
    Xml.isUriChar c = true := by
  have ascii : c.toNat < 128 := by
    simp only [isAddressChar, Bool.or_eq_true, beq_iff_eq] at address
    rcases address with ((alphanum | rfl) | rfl) | rfl
    · exact Text.toNat_lt_of_isAlphanum alphanum
    all_goals decide
  have checked := Text.forall_ascii (p := fun c => !isAddressChar c || Xml.isUriChar c)
    (by decide) ascii
  simpa [address] using checked

namespace Descriptor

/-- A root element whose namespace and local name are made of letters and digits and, in the
namespace, of marks that addresses have. -/
structure RootElement.Simple (root : RootElement) : Prop where
  address : ∀ c ∈ root.namespaceUri.toList, isAddressChar c = true
  alphanum : ∀ c ∈ root.localName.toList, c.isAlphanum = true
  begins : ∀ c ∈ root.localName.toList.head?, c.isAlpha = true

instance (root : RootElement) : Decidable root.Simple :=
  decidable_of_iff (root.namespaceUri.toList.all isAddressChar = true ∧
      root.localName.toList.all Char.isAlphanum = true ∧
      root.localName.toList.head?.all Char.isAlpha = true)
    ⟨fun all => ⟨List.all_eq_true.1 all.1, List.all_eq_true.1 all.2.1,
        (Option.all_eq_true _ _).1 all.2.2⟩,
      fun all => ⟨List.all_eq_true.2 all.1, List.all_eq_true.2 all.2,
        (Option.all_eq_true _ _).2 all.3⟩⟩

/-- The namespace of a simple root element, as it can be declared. -/
def RootElement.Simple.namespace {root : RootElement} (simple : root.Simple) :
    Xml.Written.Namespace where
  chars := root.namespaceUri.toList
  proper := List.all_eq_true.2 fun c mem => isUriChar_of_isAddressChar (simple.address c mem)

end Descriptor

namespace Xml.Written

/-- A name with which an element of a local name is written: that name itself or, where there
is none, any name that the scanner takes for one. -/
def ElementName.StandsFor (n : ElementName) (localName : String) : Prop :=
  if localName = "" then n.Readable else n.chars = localName.toList

/-- A simple local name is taken for a name, and has no other local part. -/
theorem ElementName.readable_of_simple {n : ElementName} {root : Descriptor.RootElement}
    (simple : root.Simple) (spelled : n.chars = root.localName.toList) :
    n.Readable ∧ n.localPart = n.chars := by
  have checked : ∀ c : Char, c.isAlphanum = true →
      Text.isBlank c = false ∧ c ≠ ':' ∧ (c.isAlpha = true → startsName c = true) := by
    intro c alphanum
    have each := Text.forall_ascii (p := fun c => !c.isAlphanum ||
      (!Text.isBlank c && c != ':' && (!c.isAlpha || startsName c))) (by decide)
      (Text.toNat_lt_of_isAlphanum alphanum)
    simp only [alphanum, Bool.not_true, Bool.false_or, Bool.and_eq_true, Bool.not_eq_true',
      bne_iff_ne, Bool.or_eq_true] at each
    exact ⟨each.1.1, each.1.2, fun alpha => each.2.resolve_left (by simp [alpha])⟩
  have alphanum : ∀ c ∈ n.chars, c.isAlphanum = true := spelled ▸ simple.alphanum
  refine ⟨⟨?_, fun c mem => (checked c (alphanum c mem)).1⟩, ?_⟩
  · obtain ⟨c, later, split⟩ := List.exists_cons_of_ne_nil n.nonempty
    have mem : c ∈ n.chars := split ▸ List.mem_cons_self
    have first := simple.begins c (by rw [← spelled, split]; rfl)
    rw [split]
    exact (checked c (alphanum c mem)).2.2 first
  · rw [localPart, List.takeWhile_eq_self_iff.2 ?_, List.reverse_reverse]
    intro c mem
    simpa using (checked c (alphanum c (List.mem_reverse.1 mem))).2.1

/-- Whatever an element is written with, the scanner takes for a name. -/
theorem ElementName.StandsFor.readable {n : ElementName} {root : Descriptor.RootElement}
    (stands : n.StandsFor root.localName) (simple : root.Simple) : n.Readable := by
  unfold StandsFor at stands
  split at stands
  · exact stands
  · exact (readable_of_simple simple stands).1

/-- A local name that is there is written as it is. -/
theorem ElementName.StandsFor.localPart {n : ElementName} {root : Descriptor.RootElement}
    (stands : n.StandsFor root.localName) (simple : root.Simple) (named : root.localName ≠ "") :
    String.ofList n.localPart = root.localName := by
  have spelled : n.chars = root.localName.toList := by
    unfold StandsFor at stands
    rwa [if_neg named] at stands
  rw [(readable_of_simple simple spelled).2, spelled, String.ofList_toList]

end Xml.Written

/-! ## Registrations -/

/-- No text is smaller than the empty one. -/
theorem eq_of_le_empty {text : String} (le : text ≤ "") : text = "" := by
  by_contra given
  obtain ⟨c, cs, spelled⟩ := List.exists_cons_of_ne_nil (mt String.toList_eq_nil_iff.1 given)
  refine absurd (String.lt_iff_toList_lt.2 ?_) (not_lt.2 le)
  rw [spelled]
  exact List.nil_lt_cons c cs

namespace Descriptor

variable (d : Descriptor)

/-- The root elements that a document registers, type by type. -/
def roots : List Root :=
  (Database.rulesIn (·.rootElements) 0 (d.typeNames.map d.about)).map Database.rootOf

/-- A type is the first of those that have a root element in a namespace. -/
def FirstIn (uri type : String) : Prop :=
  (∃ w ∈ d.written (·.rootElements), w.1 = type ∧ w.2.namespaceUri = uri) ∧
    ∀ w ∈ d.written (·.rootElements), w.2.namespaceUri = uri →
      (d.typeId type).index ≤ (d.typeId w.1).index

/-- Some root element has a local name. -/
def HasLocalName (name : String) : Prop :=
  name ≠ "" ∧ ∃ w ∈ d.written (·.rootElements), w.2.localName = name

variable {d}

theorem mem_roots {r : Root} :
    r ∈ d.roots ↔ ∃ w ∈ d.written (·.rootElements),
      (⟨w.2.namespaceUri, w.2.localName, d.typeId w.1⟩ : Root) = r := by
  rw [roots, (Database.map_rulesIn_perm d (·.rootElements) (fun _ => rfl) Database.rootOf).mem_iff,
    List.mem_map]
  rfl

/-- Rules stand in the order of the numbers of their types. -/
theorem rulesIn_ordered {ρ : Type} (kind : Entry → List ρ) (next : Nat) (entries : List Entry) :
    (∀ r ∈ Database.rulesIn kind next entries, next ≤ r.2.1.index) ∧
    (Database.rulesIn kind next entries).Pairwise (·.2.1.index ≤ ·.2.1.index) := by
  induction entries generalizing next with
  | nil => exact ⟨nofun, List.Pairwise.nil⟩
  | cons e entries ih =>
      obtain ⟨least, ordered⟩ := ih (next + 1)
      have own : ∀ r ∈ (kind e).map fun rule => (e.name, (⟨next⟩ : TypeId), rule),
          r.2.1.index = next := by
        intro r mem
        obtain ⟨rule, -, rfl⟩ := List.mem_map.1 mem
        rfl
      rw [Database.rulesIn_cons]
      constructor
      · intro r mem
        rcases List.mem_append.1 mem with here | later
        · exact (own r here).ge
        · exact Nat.le_of_succ_le (least r later)
      · refine List.pairwise_append.2 ⟨?_, ordered, fun a here b later => ?_⟩
        · refine List.pairwise_of_forall_mem_list fun a here b here' => ?_
          exact ((own a here).trans (own b here').symm).le
        · exact (own a here).le.trans (Nat.le_of_succ_le (least b later))

theorem roots_ordered : d.roots.Pairwise (·.owner.index ≤ ·.owner.index) :=
  List.pairwise_map.2 (rulesIn_ordered _ _ _).2

/-- Only one type is the first in a namespace. -/
theorem FirstIn.typeId_eq_iff {uri first type : String} (one : d.FirstIn uri first)
    (among : ∃ w ∈ d.written (·.rootElements), w.1 = type ∧ w.2.namespaceUri = uri) :
    d.typeId first = d.typeId type ↔ d.FirstIn uri type := by
  constructor
  · intro same
    exact ⟨among, fun w written inSpace => same ▸ one.2 w written inSpace⟩
  · rintro ⟨-, least⟩
    obtain ⟨⟨w, written, rfl, inSpace⟩, least'⟩ := one
    obtain ⟨w', written', rfl, inSpace'⟩ := among
    have index := Nat.le_antisymm (least' w' written' inSpace') (least w written inSpace)
    exact congrArg TypeId.mk index

/-- **The first type speaks for a namespace.** -/
theorem exists_firstIn (sentinels : Sentinels) {uri : String} (given : uri ≠ "")
    (some : ∃ w ∈ d.written (·.rootElements), w.2.namespaceUri = uri) :
    ∃ first, d.FirstIn uri first ∧
      (RootTable.ofList d.roots sentinels).ofNamespace? uri = .some (d.typeId first) := by
  have registered : ∃ r ∈ d.roots, r.InNamespace uri := by
    obtain ⟨w, written, inSpace⟩ := some
    exact ⟨_, mem_roots.2 ⟨w, written, rfl⟩, given, inSpace⟩
  obtain ⟨r, speaks⟩ := Xml.exists_speaksFor registered
  have found : (RootTable.ofList d.roots sentinels).ofNamespace? uri = .some r.owner :=
    RootTable.ofNamespace?_of_speaksFor speaks
  obtain ⟨⟨-, inSpace⟩, before, after, split, smaller, -⟩ := speaks
  have mem : r ∈ d.roots := by
    rw [split]
    exact List.mem_append_right _ List.mem_cons_self
  obtain ⟨w, written, rfl⟩ := mem_roots.1 mem
  refine ⟨w.1, ⟨⟨w, written, rfl, inSpace⟩, fun w' written' inSpace' => ?_⟩, found⟩
  have mem' : (⟨w'.2.namespaceUri, w'.2.localName, d.typeId w'.1⟩ : Root) ∈ d.roots :=
    mem_roots.2 ⟨w', written', rfl⟩
  have ordered := roots_ordered (d := d)
  rw [split, List.pairwise_append, List.pairwise_cons] at ordered
  rw [split, List.mem_append, List.mem_cons] at mem'
  rcases mem' with inBefore | same | inAfter
  · -- In front of the entry that speaks there is only what stands in a greater namespace.
    have apart := smaller _ inBefore ⟨given, inSpace'⟩
    rw [inSpace, inSpace'] at apart
    exact absurd apart (lt_irrefl _)
  · exact (congrArg (·.owner.index) same).ge
  · exact ordered.2.1.1 _ inAfter

/-- **A root element in no namespace speaks for its local name.** -/
theorem ofLocalName?_of_unspaced (sentinels : Sentinels)
    (once : ((d.written (·.rootElements)).map (·.2)).Nodup) {type : String} {root : RootElement}
    (registered : (type, root) ∈ d.written (·.rootElements)) (unspaced : root.namespaceUri = "")
    (named : root.localName ≠ "") :
    (RootTable.ofList d.roots sentinels).ofLocalName? root.localName = some (d.typeId type) := by
  have own : (⟨root.namespaceUri, root.localName, d.typeId type⟩ : Root) ∈ d.roots :=
    mem_roots.2 ⟨_, registered, rfl⟩
  obtain ⟨r, speaks⟩ : ∃ r, SpeaksFor d.roots (·.localName = root.localName) r :=
    Xml.exists_speaksFor ⟨_, own, rfl⟩
  have found : (RootTable.ofList d.roots sentinels).ofLocalName? root.localName = some r.owner :=
    RootTable.ofLocalName?_of_speaksFor named speaks
  obtain ⟨sameName, before, after, split, smaller, least⟩ := speaks
  have mem : r ∈ d.roots := by
    rw [split]
    exact List.mem_append_right _ List.mem_cons_self
  have below : r.namespaceUri ≤ root.namespaceUri := by
    rw [split, List.mem_append, List.mem_cons] at own
    rcases own with inBefore | same | inAfter
    · exact (smaller _ inBefore rfl).le
    · exact (congrArg (·.namespaceUri) same).ge
    · exact least _ inAfter rfl
  obtain ⟨w, written, rfl⟩ := mem_roots.1 mem
  -- Nothing is smaller than the empty namespace, so the two are one.
  have same : w.2 = root := by
    have unspaced' : w.2.namespaceUri = "" := eq_of_le_empty (unspaced ▸ below)
    rw [RootElement.mk.injEq]
    exact ⟨unspaced'.trans unspaced.symm, sameName⟩
  have one := List.inj_on_of_nodup_map once written registered same
  rw [found, one]

theorem ofLocalName?_eq_none (sentinels : Sentinels) {name : String}
    (unnamed : ¬ d.HasLocalName name) :
    (RootTable.ofList d.roots sentinels).ofLocalName? name = none := by
  rw [RootTable.ofLocalName?]
  split
  · rfl
  · rename_i given
    have absent : ∀ r ∈ d.roots, ¬ (r.localName == name) = true := by
      intro r mem same
      obtain ⟨w, written, rfl⟩ := mem_roots.1 mem
      exact unnamed ⟨by simpa using given, w, written, by simpa using same⟩
    rw [RootTable.find?_ofList_eq_none absent, Option.map_none]

theorem exists_ofLocalName? (sentinels : Sentinels) {name : String} (named : d.HasLocalName name) :
    ∃ id, (RootTable.ofList d.roots sentinels).ofLocalName? name = some id := by
  obtain ⟨given, w, written, same⟩ := named
  obtain ⟨r, speaks⟩ : ∃ r, SpeaksFor d.roots (·.localName = name) r :=
    Xml.exists_speaksFor ⟨_, mem_roots.2 ⟨w, written, rfl⟩, same⟩
  exact ⟨_, RootTable.ofLocalName?_of_speaksFor given speaks⟩

end Descriptor

namespace Database

open Descriptor (RootElement sentinelNames)

variable {d : Descriptor} {db : Database}

theorem Loading.roots_ofList (l : Loading d db) : db.roots = .ofList d.roots d.sentinels := by
  have sentinels := l.inventory.sentinels
  obtain ⟨merged, rules, merge_eq, registry_eq, -, rules_eq, -, -, roots_eq, -⟩ := l
  obtain ⟨-, rfl⟩ := Descriptor.merge_eq_ok.1 merge_eq
  rw [roots_eq, (compileEntries_eq_ok.1 rules_eq).roots, sentinels]
  rfl

/-! ## Answers -/

/-- **Which registrations take effect.** Let a document have one element, written as a root
element of a loaded database says. It is of the type that the root element is registered for if
that has no namespace. In a namespace it is of the first type that is registered there, if its
local name is registered anywhere, and otherwise XML of no registered kind. -/
theorem classifyXml_document (loaded : ofDescriptor d = .ok db) {type : String}
    {root : RootElement} (registered : (type, root) ∈ d.written (·.rootElements))
    (simple : root.Simple) {n : ElementName} (stands : n.StandsFor root.localName)
    {limit : Option Nat} (fits : (n.document simple.namespace).length ≤ xmlWindow limit) :
    (root.namespaceUri = "" →
      db.classifyXml (n.document simple.namespace) limit = d.typeId type) ∧
    (root.namespaceUri ≠ "" → d.HasLocalName (String.ofList n.localPart) →
      (∃ first, d.FirstIn root.namespaceUri first ∧
        db.classifyXml (n.document simple.namespace) limit = d.typeId first) ∧
      (db.classifyXml (n.document simple.namespace) limit = d.typeId type ↔
        d.FirstIn root.namespaceUri type)) ∧
    (root.namespaceUri ≠ "" → ¬ d.HasLocalName (String.ofList n.localPart) →
      root.localName = "" ∧
        db.classifyXml (n.document simple.namespace) limit = db.sentinels.xml) := by
  obtain ⟨l⟩ := ofDescriptor_eq_ok.1 loaded
  have able := loads_iff.1 ⟨db, loaded⟩
  have spelled : String.ofList simple.namespace.chars = root.namespaceUri := String.ofList_toList
  have answer := (RootTable.ofList d.roots d.sentinels).classify_document
    (stands.readable simple) simple.namespace (fits.trans (xmlWindow_le limit))
  rw [spelled] at answer
  have whole : db.classifyXml (n.document simple.namespace) limit =
      (RootTable.ofList d.roots d.sentinels).classify (n.document simple.namespace) := by
    rw [classifyXml, l.roots_ofList, List.take_of_length_le fits]
  rw [whole, answer]
  refine ⟨fun unspaced => ?_, fun spaced named => ?_, fun spaced unnamed => ⟨?_, ?_⟩⟩
  · have named : root.localName ≠ "" :=
      (able.rootElements _ registered).1.resolve_left (not_not.2 unspaced)
    rw [stands.localPart simple named,
      Descriptor.ofLocalName?_of_unspaced _ able.once registered unspaced named, unspaced]
    rfl
  · obtain ⟨first, one, found⟩ := Descriptor.exists_firstIn d.sentinels spaced
      ⟨_, registered, rfl⟩
    obtain ⟨byName, some⟩ := Descriptor.exists_ofLocalName? d.sentinels named
    rw [some, found, Option.map_some, Option.getD_some, Option.getD_some]
    exact ⟨⟨first, one, rfl⟩, one.typeId_eq_iff ⟨_, registered, rfl, rfl⟩⟩
  · by_contra named
    rw [stands.localPart simple named] at unnamed
    exact unnamed ⟨named, _, registered, rfl⟩
  · rw [Descriptor.ofLocalName?_eq_none _ unnamed, l.inventory.sentinels]
    rfl

/-- The sentinels, two types that share a namespace, and a namespace without a local name. -/
def pamphlets : Descriptor where
  entries := (sentinelNames.map fun name => { name }) ++
    [{ name := "text/x-a"
       rootElements := [⟨"", "e"⟩, ⟨"", "€"⟩, ⟨"urn:m", ""⟩, ⟨"urn:n", "a"⟩] },
     { name := "text/x-b", rootElements := [⟨"urn:n", "b"⟩] }]

theorem pamphlets_sound : pamphlets.Sound where
  toRulesValid := by decide
  once := by decide
  acyclic := Descriptor.acyclic_of_index_lt fun _ _ ⟨_, mem, _⟩ => nomatch mem
  sentinels := by decide

/-- The names `e` and `p:e`. -/
def bareName : ElementName := ⟨⟨['e'], by decide, by decide⟩, by decide⟩

def prefixedName : ElementName := ⟨⟨['p', ':', 'e'], by decide, by decide⟩, by decide⟩

/-- An element without a namespace, and one that stands for a namespace without local name. -/
theorem pamphlets_recognised :
    ∃ db, ofDescriptor pamphlets = .ok db ∧
      db.classifyXml (Text.utf8 "<e/>") none = pamphlets.typeId "text/x-a" ∧
      db.classifyXml (Text.utf8 "<p:e xmlns=\"urn:m\"/>") (some 100) =
        pamphlets.typeId "text/x-a" := by
  obtain ⟨db, loaded⟩ := loads_iff.2 (loadable_of_sound pamphlets_sound)
  have registered : ("text/x-a", ⟨"", "e"⟩) ∈ pamphlets.written (·.rootElements) := by
    decide
  have registered' : ("text/x-a", ⟨"urn:m", ""⟩) ∈ pamphlets.written (·.rootElements) := by
    decide
  have simple : RootElement.Simple ⟨"", "e"⟩ := by decide
  have simple' : RootElement.Simple ⟨"urn:m", ""⟩ := by decide
  have document : bareName.document simple.namespace = Text.utf8 "<e/>" := by
    revert simple
    decide
  have document' : prefixedName.document simple'.namespace =
      Text.utf8 "<p:e xmlns=\"urn:m\"/>" := by
    revert simple'
    decide
  have readable : prefixedName.Readable := by decide
  have named : pamphlets.HasLocalName "e" :=
    ⟨by decide, ("text/x-a", ⟨"", "e"⟩), registered, rfl⟩
  have first : pamphlets.FirstIn "urn:m" "text/x-a" :=
    ⟨⟨("text/x-a", ⟨"urn:m", ""⟩), registered', rfl, rfl⟩, by decide⟩
  refine ⟨db, loaded, ?_, ?_⟩
  · rw [← document]
    refine (classifyXml_document loaded registered simple (n := bareName) ?_ ?_).1 rfl
    · exact rfl
    · rw [document]
      decide
  · rw [← document']
    refine ((classifyXml_document loaded registered' simple' (n := prefixedName) ?_ ?_).2.1
      ?_ ?_).2.2 first
    · exact readable
    · rw [document']
      decide
    · decide
    · exact named

/-- Whether the document of an element is of the type that a root element is registered for, in
the database of a document that loads. -/
def TakesEffect (d : Descriptor) (type : String) (root : RootElement) (n : ElementName) : Prop :=
  ∀ db (simple : root.Simple), ofDescriptor d = .ok db →
    (n.document simple.namespace).length ≤ xmlWindow none →
    db.classifyXml (n.document simple.namespace) none = d.typeId type

theorem not_takesEffect {type : String} {root : RootElement} {n : ElementName}
    (overlooked : ∃ simple : root.Simple, (n.document simple.namespace).length ≤ xmlWindow none ∧
      (RootTable.mk pamphlets.roots pamphlets.sentinels).classify
        ((n.document simple.namespace).take (xmlWindow none)) ≠ pamphlets.typeId type) :
    ¬ TakesEffect pamphlets type root n := by
  obtain ⟨db, loaded⟩ := loads_iff.2 (loadable_of_sound pamphlets_sound)
  obtain ⟨l⟩ := ofDescriptor_eq_ok.1 loaded
  obtain ⟨simple, fits, other⟩ := overlooked
  intro effect
  have answer := effect db simple loaded fits
  rw [classifyXml, l.roots_ofList, RootTable.ofList,
    List.mergeSort_of_pairwise (by decide)] at answer
  exact other answer

/-- **Registrations that take no effect**: one in a namespace that an earlier type has, and one
without a local name where the element that stands for it has a local name that is not
registered, or a name that begins with neither a letter nor an underscore, or one that holds
white space. -/
theorem registrations_overlooked :
    (¬ ∀ (d : Descriptor) (type : String) (root : RootElement) (n : ElementName),
      (type, root) ∈ d.written (·.rootElements) → n.StandsFor root.localName →
      d.HasLocalName (String.ofList n.localPart) → TakesEffect d type root n) ∧
    (¬ ∀ (d : Descriptor) (type : String) (root : RootElement) (n : ElementName),
      (type, root) ∈ d.written (·.rootElements) → d.FirstIn root.namespaceUri type →
      n.StandsFor root.localName → TakesEffect d type root n) ∧
    (¬ ∀ (d : Descriptor) (type : String) (root : RootElement) (n : ElementName),
      (type, root) ∈ d.written (·.rootElements) → d.FirstIn root.namespaceUri type →
      d.HasLocalName (String.ofList n.localPart) → root.localName = "" →
      (∀ c ∈ n.chars, Text.isBlank c = false) → TakesEffect d type root n) ∧
    ¬ ∀ (d : Descriptor) (type : String) (root : RootElement) (n : ElementName),
      (type, root) ∈ d.written (·.rootElements) → d.FirstIn root.namespaceUri type →
      d.HasLocalName (String.ofList n.localPart) → root.localName = "" →
      n.chars.head?.any Xml.startsName = true → TakesEffect d type root n := by
  have shared : ("text/x-b", ⟨"urn:n", "b"⟩) ∈ pamphlets.written (·.rootElements) := by
    decide
  have nameless : ("text/x-a", ⟨"urn:m", ""⟩) ∈ pamphlets.written (·.rootElements) := by
    decide
  have first : pamphlets.FirstIn "urn:m" "text/x-a" :=
    ⟨⟨_, nameless, rfl, rfl⟩, by decide⟩
  refine ⟨fun claimed => ?_, fun claimed => ?_, fun claimed => ?_, fun claimed => ?_⟩
  · let n : ElementName := ⟨⟨['b'], by decide, by decide⟩, by decide⟩
    have named : pamphlets.HasLocalName "b" := ⟨by decide, _, shared, rfl⟩
    exact not_takesEffect (by decide +kernel) (claimed _ _ _ n shared rfl named)
  · let n : ElementName := ⟨⟨['d'], by decide, by decide⟩, by decide⟩
    have readable : n.Readable := by decide
    exact not_takesEffect (by decide +kernel) (claimed _ _ _ n nameless first readable)
  · let n : ElementName := ⟨⟨['€'], by decide, by decide⟩, by decide⟩
    have named : pamphlets.HasLocalName "€" :=
      ⟨by decide, ("text/x-a", ⟨"", "€"⟩), by decide, rfl⟩
    exact not_takesEffect (by decide +kernel)
      (claimed _ _ _ n nameless first named rfl (List.forall_mem_singleton.2 (by decide)))
  · let n : ElementName := ⟨⟨['p', '\u1680', 'q', ':', 'e'], by decide, by decide⟩, by decide⟩
    have named : pamphlets.HasLocalName "e" :=
      ⟨by decide, ("text/x-a", ⟨"", "e"⟩), by decide, rfl⟩
    exact not_takesEffect (by decide +kernel)
      (claimed _ _ _ n nameless first named rfl (by decide))

end Database

end MediaSniff
