/-
# MediaSniff.Proofs.Xml.Recognition — the element that decides

Of the root elements that share a namespace or a local name, one speaks for all: no other of
them has a smaller namespace, and of those with the same none was registered before it
(`SpeaksFor`). Sorting the table puts it in front of them (`find?_mergeSort_of_speaksFor`).

The first element of an opening that is registered decides, whatever was written before it
and whatever follows: by its namespace if that is registered, and otherwise by its local name
(`recognised_opening`). Two kinds of names that XML has are not taken for names, and
documents with a root element so named are not recognised (`strange_names_overlooked`).
-/
import MediaSniff.Proofs.StableSort
import MediaSniff.Proofs.Xml.Reading
import MediaSniff.Xml.RootTable
import Mathlib.Data.String.Basic

set_option autoImplicit false

namespace MediaSniff.Xml

open Written (Tag Piece Opening)

/-! ## The entry that speaks -/

/-- The entry that speaks for all that have a property: none of them has a smaller namespace,
and none with the same stands in front of it. -/
def SpeaksFor (roots : List Root) (has : Root → Prop) (r : Root) : Prop :=
  has r ∧ ∃ before after, roots = before ++ r :: after ∧
    (∀ s ∈ before, has s → r.namespaceUri < s.namespaceUri) ∧
    ∀ s ∈ after, has s → r.namespaceUri ≤ s.namespaceUri

/-- Some entry speaks for a property that some entry has. -/
theorem exists_speaksFor {roots : List Root} {has : Root → Prop} (some : ∃ s ∈ roots, has s) :
    ∃ r, SpeaksFor roots has r := by
  induction roots with
  | nil =>
      obtain ⟨s, mem, -⟩ := some
      cases mem
  | cons a roots ih =>
      by_cases later : ∃ s ∈ roots, has s
      · obtain ⟨r, holds, before, after, rfl, smaller, least⟩ := ih later
        by_cases first : has a ∧ a.namespaceUri ≤ r.namespaceUri
        · refine ⟨a, first.1, [], _, rfl, nofun, fun s mem holds' => ?_⟩
          rcases List.mem_append.1 mem with inBefore | inRest
          · exact first.2.trans (smaller s inBefore holds').le
          · rcases List.mem_cons.1 inRest with rfl | inAfter
            · exact first.2
            · exact first.2.trans (least s inAfter holds')
        · refine ⟨r, holds, a :: before, after, rfl, ?_, least⟩
          refine List.forall_mem_cons.2 ⟨fun holds' => ?_, smaller⟩
          exact not_le.1 fun le => first ⟨holds', le⟩
      · obtain ⟨s, mem, holds⟩ := some
        rcases List.mem_cons.1 mem with rfl | mem
        · exact ⟨s, holds, [], roots, rfl, nofun,
            fun s' mem' holds' => absurd ⟨s', mem', holds'⟩ later⟩
        · exact absurd ⟨s, mem, holds⟩ later

/-- **Sorting puts in front the entry that speaks.** -/
theorem find?_mergeSort_of_speaksFor {roots : List Root} {p : Root → Bool} {r : Root}
    (speaks : SpeaksFor roots (p · = true) r) :
    (roots.mergeSort fun a b => a.namespaceUri ≤ b.namespaceUri).find? p = some r := by
  obtain ⟨holds, before, after, rfl, smaller, least⟩ := speaks
  apply StableSort.find?_mergeSort
  · simp only [decide_eq_true_eq]
    exact fun a b c => le_trans
  · simp only [Bool.or_eq_true, decide_eq_true_eq]
    exact fun a b => le_total _ _
  · intro s mem holds'
    rw [decide_eq_true_eq]
    rcases List.mem_append.1 mem with inBefore | inRest
    · exact (smaller s inBefore holds').le
    · rcases List.mem_cons.1 inRest with rfl | inAfter
      · exact le_rfl
      · exact least s inAfter holds'
  · rw [List.find?_filter, List.find?_append, List.find?_eq_none.2 ?_, List.find?_cons_of_pos ?_]
    · rfl
    · simp [StableSort.level, holds]
    · intro s inBefore both
      simp only [StableSort.level, Bool.and_eq_true, decide_eq_true_eq] at both
      exact absurd (smaller s inBefore both.2) (not_lt.2 both.1.2)

/-! ## Look-ups -/

/-- Whether an entry registers a namespace. -/
def Root.InNamespace (uri : String) (r : Root) : Prop := uri ≠ "" ∧ r.namespaceUri = uri

/-- Whether no entry registers the local name of a tag. -/
def Unregistered (roots : List Root) (t : Tag) : Prop :=
  ∀ r ∈ roots, r.localName ≠ String.ofList t.localName.chars

namespace RootTable

variable {roots : List Root} {sentinels : Sentinels} {r : Root}

/-- Sorting finds nothing that is not there. -/
theorem find?_ofList_eq_none {p : Root → Bool} (absent : ∀ s ∈ roots, ¬ p s = true) :
    (ofList roots sentinels).roots.find? p = none := by
  rw [List.find?_eq_none]
  exact fun s mem => absent s (List.mem_mergeSort.1 mem)

theorem ofLocalName?_of_speaksFor {name : String} (given : name ≠ "")
    (speaks : SpeaksFor roots (·.localName = name) r) :
    (ofList roots sentinels).ofLocalName? name = some r.owner := by
  have bool : SpeaksFor roots (fun s => (s.localName == name) = true) r := by simpa using speaks
  rw [ofLocalName?, if_neg (by simpa using given), ofList, find?_mergeSort_of_speaksFor bool,
    Option.map_some]

theorem ofNamespace?_of_speaksFor {uri : String}
    (speaks : SpeaksFor roots (Root.InNamespace uri) r) :
    (ofList roots sentinels).ofNamespace? uri = some r.owner := by
  have given : uri ≠ "" := speaks.1.1
  have same : Root.InNamespace uri = fun s => (s.namespaceUri == uri) = true := by
    funext s
    simp [Root.InNamespace, given]
  have bool : SpeaksFor roots (fun s => (s.namespaceUri == uri) = true) r := same ▸ speaks
  rw [ofNamespace?, if_neg (by simpa using given), ofList, find?_mergeSort_of_speaksFor bool,
    Option.map_some]

theorem ofNamespace?_eq_none {uri : String} (none : ∀ s ∈ roots, ¬ s.InNamespace uri) :
    (ofList roots sentinels).ofNamespace? uri = .none := by
  rw [ofNamespace?]
  split
  · rfl
  · rename_i given
    have absent : ∀ s ∈ roots, ¬ (s.namespaceUri == uri) = true := by
      intro s mem same
      exact none s mem ⟨by simpa using given, by simpa using same⟩
    rw [find?_ofList_eq_none absent, Option.map_none]

theorem ofElement?_of_unregistered {t : Tag} (sentinels : Sentinels)
    (unregistered : Unregistered roots t) :
    (ofList roots sentinels).ofElement? t.read = none := by
  have absent : ∀ s ∈ roots, ¬ (s.localName == String.ofList t.localName.chars) = true := by
    intro s mem
    simpa using unregistered s mem
  rw [ofElement?, t.localName_read, ofLocalName?, find?_ofList_eq_none absent]
  split <;> rfl

end RootTable

/-! ## Recognition -/

/-- The entry that decides on an element: the one that speaks for its namespace, or, where
that is not registered, for its local name. -/
inductive Decides (roots : List Root) (t : Tag) : Root → Prop
  | byNamespace {value : List Char} {r : Root} (declared : t.namespaceValue? = some value)
      (speaks : SpeaksFor roots (Root.InNamespace (String.ofList (unescape value))) r) :
      Decides roots t r
  | byName {r : Root}
      (unregistered : ∀ value, t.namespaceValue? = some value →
        ∀ s ∈ roots, ¬ s.InNamespace (String.ofList (unescape value)))
      (speaks : SpeaksFor roots (·.localName = String.ofList t.localName.chars) r) :
      Decides roots t r

theorem exists_speaksFor_localName {roots : List Root} {t : Tag}
    (registered : ¬ Unregistered roots t) :
    ∃ r, SpeaksFor roots (·.localName = String.ofList t.localName.chars) r := by
  apply exists_speaksFor
  simpa [Unregistered] using registered

/-- Some entry decides on an element with a registered local name. -/
theorem exists_decides {roots : List Root} {t : Tag} (registered : ¬ Unregistered roots t) :
    ∃ r, Decides roots t r := by
  by_cases spaced : ∃ value, t.namespaceValue? = some value ∧
      ∃ s ∈ roots, s.InNamespace (String.ofList (unescape value))
  · obtain ⟨value, declared, some⟩ := spaced
    obtain ⟨r, speaks⟩ := exists_speaksFor some
    exact ⟨r, .byNamespace declared speaks⟩
  · obtain ⟨r, speaks⟩ := exists_speaksFor_localName registered
    refine ⟨r, .byName (fun value declared s mem inSpace => ?_) speaks⟩
    exact spaced ⟨value, declared, s, mem, inSpace⟩

theorem ofElement?_of_decides {roots : List Root} {t : Tag} {r : Root} (sentinels : Sentinels)
    (spaceless : t.spaceless = true) (registered : ¬ Unregistered roots t)
    (decides : Decides roots t r) :
    (RootTable.ofList roots sentinels).ofElement? t.read = some r.owner := by
  have given : String.ofList t.localName.chars ≠ "" := by simpa using t.localName.nonempty
  obtain ⟨named, byName⟩ := exists_speaksFor_localName registered
  rw [RootTable.ofElement?, t.localName_read, Tag.namespaceUri?_read spaceless]
  cases decides with
  | byNamespace declared speaks =>
      rw [RootTable.ofLocalName?_of_speaksFor given byName, declared, Option.map_some,
        Option.map_some, Option.bind_some, RootTable.ofNamespace?_of_speaksFor speaks]
      rfl
  | byName unregistered speaks =>
      rw [RootTable.ofLocalName?_of_speaksFor given speaks]
      cases declared : t.namespaceValue? with
      | none => rfl
      | some value =>
          rw [Option.map_some, Option.map_some, Option.bind_some,
            RootTable.ofNamespace?_eq_none (unregistered value declared)]
          rfl

/-- A piece in front of the element that decides changes at most what is known. -/
theorem ofMarkups_piece {roots : List Root} {p : Piece} (sentinels : Sentinels)
    (spaceless : ∀ t ∈ p.tag?, t.spaceless = true)
    (passed : ∀ t ∈ p.tag?, t.startsAsElement = true → Unregistered roots t) (known : TypeId) :
    ∃ now, ∀ later, (RootTable.ofList roots sentinels).ofMarkups known (p.markups ++ later) =
      (RootTable.ofList roots sentinels).ofMarkups now later := by
  cases p with
  | text cs plain => exact ⟨known, fun _ => rfl⟩
  | instruction cs inside => exact ⟨sentinels.xml, fun _ => rfl⟩
  | comment cs inside => exact ⟨sentinels.xml, fun _ => rfl⟩
  | endTag cs inside => exact ⟨known, fun _ => rfl⟩
  | tag t =>
      have read := Tag.ofText?_text (spaceless t rfl)
      by_cases starts : t.startsAsElement = true
      · rw [if_pos starts] at read
        have none := RootTable.ofElement?_of_unregistered sentinels (passed t rfl starts)
        refine ⟨sentinels.xml, fun later => ?_⟩
        simp only [Piece.markups, List.singleton_append, RootTable.ofMarkups, read, none]
        rfl
      · rw [if_neg starts] at read
        refine ⟨known, fun later => ?_⟩
        simp only [Piece.markups, List.singleton_append, RootTable.ofMarkups, read]

theorem ofMarkups_pieces {roots : List Root} {pieces : List Piece} (sentinels : Sentinels)
    (spaceless : ∀ t ∈ pieces.filterMap Piece.tag?, t.spaceless = true)
    (passed : ∀ t ∈ pieces.filterMap Piece.tag?, t.startsAsElement = true → Unregistered roots t)
    (known : TypeId) :
    ∃ now, ∀ later,
      (RootTable.ofList roots sentinels).ofMarkups known (pieces.flatMap Piece.markups ++ later) =
        (RootTable.ofList roots sentinels).ofMarkups now later := by
  induction pieces generalizing known with
  | nil => exact ⟨known, fun _ => rfl⟩
  | cons p pieces ih =>
      have here : ∀ t ∈ p.tag?, t ∈ (p :: pieces).filterMap Piece.tag? := fun t tag =>
        List.mem_filterMap.2 ⟨p, List.mem_cons_self, tag⟩
      have there : ∀ t ∈ pieces.filterMap Piece.tag?, t ∈ (p :: pieces).filterMap Piece.tag? := by
        intro t mem
        obtain ⟨q, later, tag⟩ := List.mem_filterMap.1 mem
        exact List.mem_filterMap.2 ⟨q, List.mem_cons_of_mem p later, tag⟩
      obtain ⟨between, first⟩ := ofMarkups_piece sentinels (fun t tag => spaceless t (here t tag))
        (fun t tag => passed t (here t tag)) known
      obtain ⟨now, rest⟩ := ih (fun t mem => spaceless t (there t mem))
        (fun t mem => passed t (there t mem)) between
      refine ⟨now, fun later => ?_⟩
      rw [List.flatMap_cons, List.append_assoc, first, rest]

/-- Whether the last tag of an opening settles how a document is classified that begins so:
some entry decides on it, and the document is of that entry's type. -/
def Recognised (roots : List Root) (sentinels : Sentinels) (o : Opening) (tail : Bytes) : Prop :=
  (∃ r, Decides roots o.tag r) ∧
    ∀ r, Decides roots o.tag r →
      (RootTable.ofList roots sentinels).classify (o.document tail) = r.owner

/-- **The first registered element decides.** Let the last tag of an opening have a
registered local name and a name that begins as one, and let no tag in front of it have both.
Then the entry decides that speaks for its namespace, or else for its local name, if the
opening is visible as a whole and no name in its tags holds white space. -/
theorem recognised_opening (roots : List Root) (sentinels : Sentinels) (o : Opening) (tail : Bytes)
    (visible : o.Visible)
    (spaceless : ∀ t ∈ o.tag :: o.earlierTags, t.spaceless = true)
    (passed : ∀ t ∈ o.earlierTags, t.startsAsElement = true → Unregistered roots t)
    (starts : o.tag.startsAsElement = true)
    (registered : ¬ Unregistered roots o.tag) :
    Recognised roots sentinels o tail := by
  obtain ⟨here, earlier⟩ := List.forall_mem_cons.1 spaceless
  refine ⟨exists_decides registered, fun r decides => ?_⟩
  obtain ⟨later, shown⟩ := Opening.exists_markups_document visible tail
  obtain ⟨now, reached⟩ := ofMarkups_pieces sentinels earlier passed sentinels.unknown
  have read := Tag.ofText?_text here
  rw [if_pos starts] at read
  have found := ofElement?_of_decides sentinels here registered decides
  rw [RootTable.classify, shown]
  refine (reached _).trans ?_
  simp only [RootTable.ofMarkups, read, found]

/-- Two entries that share a local name, and one for a namespace. -/
def noteRoots : List Root :=
  [⟨"urn:b", "note", ⟨7⟩⟩, ⟨"urn:a", "note", ⟨6⟩⟩, ⟨"a&b", "other", ⟨8⟩⟩]

/-- The opening `<!--<note>--><p:body/><note xmlns = 'a&amp;b' c=">">`. -/
def noteOpening : Opening where
  pieces :=
    [.comment ['<', 'n', 'o', 't', 'e', '>'] (by decide),
     .tag { space? := some ⟨⟨['p'], by decide, by decide⟩, by decide⟩
            localName := ⟨⟨['b', 'o', 'd', 'y'], by decide, by decide⟩, by decide⟩
            attributes := []
            gap := ⟨[], by decide⟩
            closed := true }]
  tag :=
    { space? := none
      localName := ⟨⟨['n', 'o', 't', 'e'], by decide, by decide⟩, by decide⟩
      attributes :=
        [{ gap := ⟨[' '], by decide⟩
           apart := by decide
           name := ⟨['x', 'm', 'l', 'n', 's'], by decide, by decide⟩
           beforeEquals := ⟨[' '], by decide⟩
           afterEquals := ⟨[' '], by decide⟩
           quote := '\x27'
           quotes := by decide
           value := ['a', '&', 'a', 'm', 'p', ';', 'b']
           unquoted := by decide },
         { gap := ⟨[' '], by decide⟩
           apart := by decide
           name := ⟨['c'], by decide, by decide⟩
           beforeEquals := ⟨[], by decide⟩
           afterEquals := ⟨[], by decide⟩
           quote := '"'
           quotes := by decide
           value := ['>']
           unquoted := by decide }]
      gap := ⟨[], by decide⟩
      closed := false }

/-- The namespace decides, with its reference put in, and what follows does not matter. -/
theorem noteOpening_recognised :
    noteOpening.Visible ∧
      (RootTable.ofList noteRoots ⟨⟨0⟩, ⟨1⟩, ⟨2⟩, ⟨3⟩, ⟨4⟩⟩).classify
        (noteOpening.document [0xFF]) = ⟨8⟩ := by
  have visible : noteOpening.Visible := ⟨by decide +kernel, by decide +kernel⟩
  have value : String.ofList (unescape ['a', '&', 'a', 'm', 'p', ';', 'b']) = "a&b" := by
    decide +kernel
  have decides : Decides noteRoots noteOpening.tag ⟨"a&b", "other", ⟨8⟩⟩ := by
    refine .byNamespace rfl
      ⟨?_, [⟨"urn:b", "note", ⟨7⟩⟩, ⟨"urn:a", "note", ⟨6⟩⟩], [], rfl, ?_, nofun⟩
    · exact ⟨by simp [value], value.symm⟩
    · simp [Root.InNamespace, value]
  have spaceless : ∀ t ∈ noteOpening.tag :: noteOpening.earlierTags, t.spaceless = true := by
    decide
  have passed : ∀ t ∈ noteOpening.earlierTags, t.startsAsElement = true →
      Unregistered noteRoots t := by
    unfold Unregistered
    decide
  have registered : ¬ Unregistered noteRoots noteOpening.tag := by
    unfold Unregistered
    decide
  exact ⟨visible, (recognised_opening noteRoots _ noteOpening [0xFF] visible spaceless passed rfl
    registered).2 _ decides⟩

/-- An opening of one start tag without attributes. -/
def bareOpening (name : Written.PlainName) : Opening where
  pieces := []
  tag := { space? := none, localName := name, attributes := [], gap := ⟨[], rfl⟩, closed := false }

/-- The opening `<€>`. -/
def euroOpening : Opening := bareOpening ⟨⟨['€'], by decide, by decide⟩, by decide⟩

/-- The opening of one tag whose name holds U+1680, the one character of white space that XML
lets stand in a name. -/
def oghamOpening : Opening :=
  bareOpening ⟨⟨['a', '\u1680', 'b'], by decide, by decide⟩, by decide⟩

/-- **Two kinds of names are not recognised**: those that begin with neither a letter nor an
underscore, and those that hold white space. -/
theorem strange_names_overlooked :
    (¬ ∀ (roots : List Root) (sentinels : Sentinels) (o : Opening) (tail : Bytes), o.Visible →
      (∀ t ∈ o.tag :: o.earlierTags, t.spaceless = true) →
      (∀ t ∈ o.earlierTags, Unregistered roots t) → ¬ Unregistered roots o.tag →
      Recognised roots sentinels o tail) ∧
    ¬ ∀ (roots : List Root) (sentinels : Sentinels) (o : Opening) (tail : Bytes), o.Visible →
      (∀ t ∈ o.tag :: o.earlierTags, t.startsAsElement = true) →
      (∀ t ∈ o.earlierTags, Unregistered roots t) → ¬ Unregistered roots o.tag →
      Recognised roots sentinels o tail := by
  -- One entry that is registered by its local name alone decides on a tag of that name.
  have decides {name : Written.PlainName} {id : TypeId} :
      Decides [⟨"", String.ofList name.chars, id⟩] (bareOpening name).tag
        ⟨"", String.ofList name.chars, id⟩ :=
    .byName nofun ⟨rfl, [], [], rfl, nofun, nofun⟩
  have registered {name : Written.PlainName} (id : TypeId) :
      ¬ Unregistered [⟨"", String.ofList name.chars, id⟩] (bareOpening name).tag :=
    fun none => none _ List.mem_cons_self rfl
  constructor
  · intro claimed
    have visible : euroOpening.Visible := ⟨by decide +kernel, by decide +kernel⟩
    have spaceless : ∀ t ∈ euroOpening.tag :: euroOpening.earlierTags, t.spaceless = true := by
      decide
    have answer := (claimed _ ⟨⟨0⟩, ⟨1⟩, ⟨2⟩, ⟨3⟩, ⟨4⟩⟩ euroOpening [] visible spaceless nofun
      (registered ⟨10⟩)).2 _ decides
    revert answer
    decide +kernel
  · intro claimed
    have visible : oghamOpening.Visible := ⟨by decide +kernel, by decide +kernel⟩
    have starts : ∀ t ∈ oghamOpening.tag :: oghamOpening.earlierTags, t.startsAsElement = true := by
      decide
    have answer := (claimed _ ⟨⟨0⟩, ⟨1⟩, ⟨2⟩, ⟨3⟩, ⟨4⟩⟩ oghamOpening [] visible starts nofun
      (registered ⟨10⟩)).2 _ decides
    revert answer
    decide +kernel

end MediaSniff.Xml
