/-
# MediaSniff.Proofs.Descriptor.RoundTrip — a document that is written is read back

What has been read of a document is written in one way, whatever it was read from: as objects,
with the fields in their order, and without those that are absent or empty. Reading it again
gives the same, record by record: a field that is left out is read as what it was left out for,
and no list is nested deeper than it was (`matchRule?_toJson`, `entryOf?_toJson`). So a document
comes back from its text as it is (`parse?_render`), and loads as before.
-/
import MediaSniff.Database.Basic
import MediaSniff.Descriptor.Write
import MediaSniff.Proofs.Json.Fields
import MediaSniff.Proofs.Json.Printing

set_option autoImplicit false

namespace MediaSniff.Descriptor

open Json

variable {α : Type}

/-! ## Written fields -/

/-- The field for a list, which is left out if it is empty. -/
def listField (write : α → Json) : List α → Option Json
  | [] => none
  | as => some (.array (as.map write))

/-- The field for a text, which is left out if it is empty. -/
def textField (text : String) : Option Json :=
  if text.isEmpty then none else some (.ofString text)

theorem memberOf_eq (name : String) (write : α → Json) (a : Option α) :
    memberOf name write a = ((a.map write).map (name, ·)).toList := by
  cases a <;> rfl

theorem membersOf_eq (name : String) (write : α → Json) (as : List α) :
    membersOf name write as = ((listField write as).map (name, ·)).toList := by
  cases as <;> rfl

theorem withDefault_textField (text : String) :
    withDefault "" text? (textField text) = some text := by
  unfold textField
  split
  · rename_i blank
    rw [String.isEmpty_iff.1 blank]
    rfl
  · rfl

/-- The members of a list were read one by one, with one level less. -/
theorem exists_of_withDefault {read? : Nat → Json → Option α} {levels : Nat} {f : Option Json}
    {as : List α} (read : withDefault [] (elements? read? levels) f = some as) {a : α}
    (mem : a ∈ as) : ∃ l v, levels = l + 1 ∧ read? l v = some a := by
  cases f with
  | none =>
      cases read
      cases mem
  | some v =>
      cases levels with
      | zero => cases read
      | succ l =>
          cases v with
          | array elements =>
              obtain ⟨v, element⟩ := exists_of_mapM_eq_some read mem
              exact ⟨l, v, rfl, element⟩
          | _ => cases read

/-- **A list is read back** if its members are, with the levels that they were read with. -/
theorem withDefault_array {read? : Nat → Json → Option α} {write : α → Json} {l : Nat}
    {f : Option Json} {as : List α}
    (read : withDefault [] (elements? read? (l + 1)) f = some as)
    (back : ∀ v a, read? l v = some a → read? l (write a) = some a) :
    withDefault [] (elements? read? (l + 1)) (some (.array (as.map write))) = some as := by
  refine mapM_map_eq_some fun a mem => ?_
  obtain ⟨l', v, same, element⟩ := exists_of_withDefault read mem
  obtain rfl := Nat.succ.inj same
  exact back v a element

/-- A list that is left out if it is empty is read back, whatever levels there are. -/
theorem withDefault_listField {read? : Nat → Json → Option α} {write : α → Json} {levels : Nat}
    {f : Option Json} {as : List α} (read : withDefault [] (elements? read? levels) f = some as)
    (back : ∀ l v a, levels = l + 1 → read? l v = some a → read? l (write a) = some a) :
    withDefault [] (elements? read? levels) (listField write as) = some as := by
  cases as with
  | nil => rfl
  | cons a as =>
      obtain ⟨l, -, rfl, -⟩ := exists_of_withDefault read List.mem_cons_self
      exact withDefault_array read fun v a => back l v a rfl

/-! ## Records -/

theorem GlobRule.toJson_eq (rule : GlobRule) :
    rule.toJson = .ofMembers (present [("pattern", some (.ofString rule.pattern)),
      ("weight", rule.weight.map .ofNat),
      ("case-sensitive", some (.bool rule.caseSensitive))]) := by
  simp [toJson, present, memberOf_eq]

theorem globRule?_eq_some {l : Nat} {v : Json} {rule : GlobRule} :
    globRule? (l + 1) v = some rule ↔ ∃ pattern weight caseSensitive,
      fields? ["pattern", "weight", "case-sensitive"] v = some [pattern, weight, caseSensitive] ∧
      required text? pattern = some rule.pattern ∧
      optional unsigned32? weight = some rule.weight ∧
      withDefault false flag? caseSensitive = some rule.caseSensitive := by
  rw [globRule?, Option.bind_eq_bind, Option.bind_eq_some_iff]
  constructor
  · rintro ⟨fields, found, read⟩
    split at read
    · simp only [Option.bind_eq_bind, Option.bind_eq_some_iff] at read
      obtain ⟨_, pattern, _, weight, _, caseSensitive, whole⟩ := read
      cases whole
      exact ⟨_, _, _, found, pattern, weight, caseSensitive⟩
    · cases read
  · rintro ⟨_, _, _, found, pattern, weight, caseSensitive⟩
    exact ⟨_, found, by simp only [pattern, weight, caseSensitive]; rfl⟩

theorem globRule?_toJson {levels : Nat} {v : Json} {rule : GlobRule}
    (read : globRule? levels v = some rule) : globRule? levels rule.toJson = some rule := by
  cases levels with
  | zero => cases read
  | succ l =>
      obtain ⟨_, _, _, -, -, weight, -⟩ := globRule?_eq_some.1 read
      rw [rule.toJson_eq]
      exact globRule?_eq_some.2
        ⟨_, _, _, fields?_present _ (by simp), rfl, optional_natural weight, rfl⟩

theorem RootElement.toJson_eq (root : RootElement) :
    root.toJson = .ofMembers (present [("namespace-uri", some (.ofString root.namespaceUri)),
      ("local-name", some (.ofString root.localName))]) := by
  simp [toJson, present]

theorem rootElement?_eq_some {l : Nat} {v : Json} {root : RootElement} :
    rootElement? (l + 1) v = some root ↔ ∃ namespaceUri localName,
      fields? ["namespace-uri", "local-name"] v = some [namespaceUri, localName] ∧
      withDefault "" text? namespaceUri = some root.namespaceUri ∧
      withDefault "" text? localName = some root.localName := by
  rw [rootElement?, Option.bind_eq_bind, Option.bind_eq_some_iff]
  constructor
  · rintro ⟨fields, found, read⟩
    split at read
    · simp only [Option.bind_eq_bind, Option.bind_eq_some_iff] at read
      obtain ⟨_, namespaceUri, _, localName, whole⟩ := read
      cases whole
      exact ⟨_, _, found, namespaceUri, localName⟩
    · cases read
  · rintro ⟨_, _, found, namespaceUri, localName⟩
    exact ⟨_, found, by simp only [namespaceUri, localName]; rfl⟩

theorem rootElement?_toJson {levels : Nat} {v : Json} {root : RootElement}
    (read : rootElement? levels v = some root) : rootElement? levels root.toJson = some root := by
  cases levels with
  | zero => cases read
  | succ l =>
      rw [root.toJson_eq]
      exact rootElement?_eq_some.2 ⟨_, _, fields?_present _ (by simp), rfl, rfl⟩

/-! ## Byte tests -/

theorem MatchRule.listToJson_eq_map (rules : List MatchRule) :
    MatchRule.listToJson rules = rules.map MatchRule.toJson := by
  induction rules with
  | nil => rfl
  | cons rule rules ih => rw [listToJson, ih, List.map_cons]

theorem MatchRule.toJson_eq (rule : MatchRule) :
    rule.toJson = .ofMembers (present [("offset", some (.ofString rule.offset)),
      ("type", some (.ofString rule.kind)), ("value", some (.ofString rule.value)),
      ("mask", rule.mask.map .ofString), ("match", listField MatchRule.toJson rule.children)]) := by
  obtain ⟨offset, kind, value, mask, children⟩ := rule
  rw [toJson, listToJson_eq_map]
  cases children <;> simp [present, memberOf_eq, membersOf_eq, listField]

theorem matchRules?_eq : matchRules? = elements? matchRule? := by
  funext levels v
  cases levels <;> rfl

theorem matchRule?_eq_some {l : Nat} {v : Json} {rule : MatchRule} :
    matchRule? (l + 1) v = some rule ↔ ∃ offset kind value mask children,
      fields? ["offset", "type", "value", "mask", "match"] v =
        some [offset, kind, value, mask, children] ∧
      required text? offset = some rule.offset ∧
      required text? kind = some rule.kind ∧
      required text? value = some rule.value ∧
      optional text? mask = some rule.mask ∧
      withDefault [] (elements? matchRule? l) children = some rule.children := by
  rw [matchRule?, Option.bind_eq_bind, Option.bind_eq_some_iff, matchRules?_eq]
  constructor
  · rintro ⟨fields, found, read⟩
    split at read
    · simp only [Option.bind_eq_bind, Option.bind_eq_some_iff] at read
      obtain ⟨_, offset, _, kind, _, value, _, mask, _, children, whole⟩ := read
      cases whole
      exact ⟨_, _, _, _, _, found, offset, kind, value, mask, children⟩
    · cases read
  · rintro ⟨_, _, _, _, _, found, offset, kind, value, mask, children⟩
    cases rule
    exact ⟨_, found, by simp only [offset, kind, value, mask, children]; rfl⟩

/-- **Byte tests are read back** with those that follow them, however deeply they are nested. -/
theorem matchRule?_toJson {levels : Nat} {v : Json} {rule : MatchRule}
    (read : matchRule? levels v = some rule) : matchRule? levels rule.toJson = some rule := by
  induction levels using Nat.strongRecOn generalizing v rule with
  | ind levels ih =>
      cases levels with
      | zero => cases read
      | succ l =>
          obtain ⟨_, _, _, _, _, -, -, -, -, -, children⟩ := matchRule?_eq_some.1 read
          rw [rule.toJson_eq]
          refine matchRule?_eq_some.2 ⟨_, _, _, _, _, fields?_present _ (by simp), rfl, rfl, rfl,
            optional_text _, withDefault_listField children fun l' v' rule' same read' => ?_⟩
          exact ih l' (by omega) read'

/-! ## Content rules -/

theorem MagicRule.toJson_eq (rule : MagicRule) :
    rule.toJson = .ofMembers (present [("priority", rule.priority.map .ofNat),
      ("match", some (.array (rule.tests.map MatchRule.toJson)))]) := by
  simp [toJson, present, memberOf_eq, MatchRule.listToJson_eq_map]

theorem magicRule?_eq_some {l : Nat} {v : Json} {rule : MagicRule} :
    magicRule? (l + 1) v = some rule ↔ ∃ priority tests,
      fields? ["priority", "match"] v = some [priority, tests] ∧
      optional unsigned32? priority = some rule.priority ∧
      withDefault [] (elements? matchRule? l) tests = some rule.tests := by
  rw [magicRule?, Option.bind_eq_bind, Option.bind_eq_some_iff, matchRules?_eq]
  constructor
  · rintro ⟨fields, found, read⟩
    split at read
    · simp only [Option.bind_eq_bind, Option.bind_eq_some_iff] at read
      obtain ⟨_, priority, _, tests, whole⟩ := read
      cases whole
      exact ⟨_, _, found, priority, tests⟩
    · cases read
  · rintro ⟨_, _, found, priority, tests⟩
    exact ⟨_, found, by simp only [priority, tests]; rfl⟩

/-- There is always a list of tests, so a rule takes one level more than it may have had. -/
theorem magicRule?_toJson {l : Nat} {v : Json} {rule : MagicRule}
    (read : magicRule? (l + 2) v = some rule) : magicRule? (l + 2) rule.toJson = some rule := by
  obtain ⟨_, _, -, priority, tests⟩ := magicRule?_eq_some.1 read
  rw [rule.toJson_eq]
  exact magicRule?_eq_some.2 ⟨_, _, fields?_present _ (by simp), optional_natural priority,
    withDefault_array tests fun _ _ => matchRule?_toJson⟩

/-! ## Layout tests -/

theorem LayoutTest.listToJson_eq_map (tests : List LayoutTest) :
    LayoutTest.listToJson tests = tests.map LayoutTest.toJson := by
  induction tests with
  | nil => rfl
  | cons test tests ih => rw [listToJson, ih, List.map_cons]

theorem LayoutTest.toJson_eq (test : LayoutTest) :
    test.toJson = .ofMembers (present [("path", some (.ofString test.path)),
      ("type", test.kind.map .ofString), ("match-case", some (.bool test.matchCase)),
      ("executable", some (.bool test.executable)), ("non-empty", some (.bool test.nonEmpty)),
      ("mimetype", test.mimetype.map .ofString),
      ("treematch", listField LayoutTest.toJson test.children)]) := by
  obtain ⟨path, kind, matchCase, executable, nonEmpty, mimetype, children⟩ := test
  rw [toJson, listToJson_eq_map]
  cases children <;> simp [present, memberOf_eq, membersOf_eq, listField]

theorem layoutTests?_eq : layoutTests? = elements? layoutTest? := by
  funext levels v
  cases levels <;> rfl

theorem layoutTest?_eq_some {l : Nat} {v : Json} {test : LayoutTest} :
    layoutTest? (l + 1) v = some test ↔
      ∃ path kind matchCase executable nonEmpty mimetype children,
      fields? ["path", "type", "match-case", "executable", "non-empty", "mimetype", "treematch"] v =
        some [path, kind, matchCase, executable, nonEmpty, mimetype, children] ∧
      required text? path = some test.path ∧
      optional text? kind = some test.kind ∧
      withDefault false flag? matchCase = some test.matchCase ∧
      withDefault false flag? executable = some test.executable ∧
      withDefault false flag? nonEmpty = some test.nonEmpty ∧
      optional text? mimetype = some test.mimetype ∧
      withDefault [] (elements? layoutTest? l) children = some test.children := by
  rw [layoutTest?, Option.bind_eq_bind, Option.bind_eq_some_iff, layoutTests?_eq]
  constructor
  · rintro ⟨fields, found, read⟩
    split at read
    · simp only [Option.bind_eq_bind, Option.bind_eq_some_iff] at read
      obtain ⟨_, path, _, kind, _, matchCase, _, executable, _, nonEmpty, _, mimetype, _, children,
        whole⟩ := read
      cases whole
      exact ⟨_, _, _, _, _, _, _, found, path, kind, matchCase, executable, nonEmpty, mimetype,
        children⟩
    · cases read
  · rintro ⟨_, _, _, _, _, _, _, found, path, kind, matchCase, executable, nonEmpty, mimetype,
      children⟩
    cases test
    exact ⟨_, found, by
      simp only [path, kind, matchCase, executable, nonEmpty, mimetype, children]
      rfl⟩

/-- **Layout tests are read back** with those that hold besides, however deeply they are
nested. -/
theorem layoutTest?_toJson {levels : Nat} {v : Json} {test : LayoutTest}
    (read : layoutTest? levels v = some test) : layoutTest? levels test.toJson = some test := by
  induction levels using Nat.strongRecOn generalizing v test with
  | ind levels ih =>
      cases levels with
      | zero => cases read
      | succ l =>
          obtain ⟨_, _, _, _, _, _, _, -, -, -, -, -, -, -, children⟩ := layoutTest?_eq_some.1 read
          rw [test.toJson_eq]
          refine layoutTest?_eq_some.2 ⟨_, _, _, _, _, _, _, fields?_present _ (by simp), rfl,
            optional_text _, rfl, rfl, rfl, optional_text _,
            withDefault_listField children fun l' v' test' same read' => ?_⟩
          exact ih l' (by omega) read'

/-! ## Directory rules -/

theorem LayoutRule.toJson_eq (rule : LayoutRule) :
    rule.toJson = .ofMembers (present [("priority", rule.priority.map .ofNat),
      ("treematch", some (.array (rule.tests.map LayoutTest.toJson)))]) := by
  simp [toJson, present, memberOf_eq, LayoutTest.listToJson_eq_map]

theorem layoutRule?_eq_some {l : Nat} {v : Json} {rule : LayoutRule} :
    layoutRule? (l + 1) v = some rule ↔ ∃ priority tests,
      fields? ["priority", "treematch"] v = some [priority, tests] ∧
      optional unsigned32? priority = some rule.priority ∧
      withDefault [] (elements? layoutTest? l) tests = some rule.tests := by
  rw [layoutRule?, Option.bind_eq_bind, Option.bind_eq_some_iff, layoutTests?_eq]
  constructor
  · rintro ⟨fields, found, read⟩
    split at read
    · simp only [Option.bind_eq_bind, Option.bind_eq_some_iff] at read
      obtain ⟨_, priority, _, tests, whole⟩ := read
      cases whole
      exact ⟨_, _, found, priority, tests⟩
    · cases read
  · rintro ⟨_, _, found, priority, tests⟩
    exact ⟨_, found, by simp only [priority, tests]; rfl⟩

theorem layoutRule?_toJson {l : Nat} {v : Json} {rule : LayoutRule}
    (read : layoutRule? (l + 2) v = some rule) : layoutRule? (l + 2) rule.toJson = some rule := by
  obtain ⟨_, _, -, priority, tests⟩ := layoutRule?_eq_some.1 read
  rw [rule.toJson_eq]
  exact layoutRule?_eq_some.2 ⟨_, _, fields?_present _ (by simp), optional_natural priority,
    withDefault_array tests fun _ _ => layoutTest?_toJson⟩

/-! ## Entries -/

/-- The names of the fields of an entry. -/
def entryFields : List String :=
  ["type", "comment", "acronym", "expanded-acronym", "icon", "generic-icon", "alias",
    "sub-class-of", "glob", "magic", "treemagic", "root-xml"]

theorem Entry.toJson_eq (e : Entry) :
    e.toJson = .ofMembers (present [("type", some (.ofString e.name)),
      ("comment", textField e.comment), ("acronym", e.acronym.map .ofString),
      ("expanded-acronym", e.expandedAcronym.map .ofString), ("icon", e.icon.map .ofString),
      ("generic-icon", e.genericIcon.map .ofString), ("alias", listField .ofString e.aliases),
      ("sub-class-of", listField .ofString e.subClassOf),
      ("glob", listField GlobRule.toJson e.globs), ("magic", listField MagicRule.toJson e.magic),
      ("treemagic", listField LayoutRule.toJson e.layouts),
      ("root-xml", listField RootElement.toJson e.rootElements)]) := by
  have comment : (if e.comment.isEmpty then [] else [("comment", Json.ofString e.comment)]) =
      ((textField e.comment).map (Prod.mk "comment")).toList := by
    unfold textField
    split <;> rfl
  rw [toJson, comment]
  simp only [present, List.flatMap_cons, List.flatMap_nil, memberOf_eq, membersOf_eq,
    Option.map_some, Option.toList_some, List.cons_append, List.nil_append, List.append_assoc,
    List.append_nil]

theorem entryOf?_eq_some {l : Nat} {v : Json} {e : Entry} :
    entryOf? (l + 1) v = some e ↔
      ∃ name comment acronym expandedAcronym icon genericIcon aliases subClassOf globs magic layouts
        rootElements,
      fields? entryFields v =
        some [name, comment, acronym, expandedAcronym, icon, genericIcon, aliases, subClassOf,
          globs, magic, layouts, rootElements] ∧
      required text? name = some e.name ∧
      withDefault "" text? comment = some e.comment ∧
      optional text? acronym = some e.acronym ∧
      optional text? expandedAcronym = some e.expandedAcronym ∧
      optional text? icon = some e.icon ∧
      optional text? genericIcon = some e.genericIcon ∧
      withDefault [] (elements? (fun _ => text?) l) aliases = some e.aliases ∧
      withDefault [] (elements? (fun _ => text?) l) subClassOf = some e.subClassOf ∧
      withDefault [] (elements? globRule? l) globs = some e.globs ∧
      withDefault [] (elements? magicRule? l) magic = some e.magic ∧
      withDefault [] (elements? layoutRule? l) layouts = some e.layouts ∧
      withDefault [] (elements? rootElement? l) rootElements = some e.rootElements := by
  rw [entryOf?, Option.bind_eq_bind, Option.bind_eq_some_iff, entryFields]
  constructor
  · rintro ⟨fields, found, read⟩
    split at read
    · obtain ⟨_, name, read⟩ := Option.bind_eq_some_iff.1 read
      obtain ⟨_, comment, read⟩ := Option.bind_eq_some_iff.1 read
      obtain ⟨_, acronym, read⟩ := Option.bind_eq_some_iff.1 read
      obtain ⟨_, expandedAcronym, read⟩ := Option.bind_eq_some_iff.1 read
      obtain ⟨_, icon, read⟩ := Option.bind_eq_some_iff.1 read
      obtain ⟨_, genericIcon, read⟩ := Option.bind_eq_some_iff.1 read
      obtain ⟨_, aliases, read⟩ := Option.bind_eq_some_iff.1 read
      obtain ⟨_, subClassOf, read⟩ := Option.bind_eq_some_iff.1 read
      obtain ⟨_, globs, read⟩ := Option.bind_eq_some_iff.1 read
      obtain ⟨_, magic, read⟩ := Option.bind_eq_some_iff.1 read
      obtain ⟨_, layouts, read⟩ := Option.bind_eq_some_iff.1 read
      obtain ⟨_, rootElements, read⟩ := Option.bind_eq_some_iff.1 read
      cases read
      exact ⟨_, _, _, _, _, _, _, _, _, _, _, _, found, name, comment, acronym, expandedAcronym,
        icon, genericIcon, aliases, subClassOf, globs, magic, layouts, rootElements⟩
    · cases read
  · rintro ⟨_, _, _, _, _, _, _, _, _, _, _, _, found, name, comment, acronym, expandedAcronym,
      icon, genericIcon, aliases, subClassOf, globs, magic, layouts, rootElements⟩
    exact ⟨_, found, by
      simp only [name, comment, acronym, expandedAcronym, icon, genericIcon, aliases, subClassOf,
        globs, magic, layouts, rootElements]
      rfl⟩

/-- **Entries are read back**, where there are levels for the lists in their rules. -/
theorem entryOf?_toJson {l : Nat} {v : Json} {e : Entry} (read : entryOf? (l + 4) v = some e) :
    entryOf? (l + 4) e.toJson = some e := by
  obtain ⟨_, _, _, _, _, _, _, _, _, _, _, _, -, -, -, -, -, -, -, aliases, subClassOf, globs,
    magic, layouts, rootElements⟩ := entryOf?_eq_some.1 read
  have texts {f : Option Json} {as : List String}
      (read : withDefault [] (elements? (fun _ => text?) (l + 3)) f = some as) :
      withDefault [] (elements? (fun _ => text?) (l + 3)) (listField .ofString as) = some as :=
    withDefault_listField read fun _ _ _ _ _ => rfl
  rw [e.toJson_eq]
  refine entryOf?_eq_some.2 ⟨_, _, _, _, _, _, _, _, _, _, _, _, fields?_present _ (by simp), rfl,
    withDefault_textField _, optional_text _, optional_text _, optional_text _, optional_text _,
    texts aliases, texts subClassOf, ?_, ?_, ?_, ?_⟩
  · exact withDefault_listField globs fun _ _ _ _ => globRule?_toJson
  · refine withDefault_listField magic fun _ _ _ same read => ?_
    cases same
    exact magicRule?_toJson read
  · refine withDefault_listField layouts fun _ _ _ same read => ?_
    cases same
    exact layoutRule?_toJson read
  · exact withDefault_listField rootElements fun _ _ _ _ => rootElement?_toJson

/-! ## Documents -/

theorem toJson_eq (d : Descriptor) :
    d.toJson = .ofMembers (present [("types", some (.array (d.entries.map Entry.toJson)))]) :=
  rfl

theorem ofJson?_eq_some {v : Json} {d : Descriptor} :
    ofJson? v = some d ↔ ∃ entries, fields? ["types"] v = some [entries] ∧
      withDefault [] (elements? entryOf? (greatestDepth - 1)) entries = some d.entries := by
  rw [ofJson?, Option.bind_eq_bind, Option.bind_eq_some_iff]
  constructor
  · rintro ⟨fields, found, read⟩
    split at read
    · simp only [Option.bind_eq_bind, Option.bind_eq_some_iff] at read
      obtain ⟨_, entries, whole⟩ := read
      cases whole
      exact ⟨_, found, entries⟩
    · cases read
  · rintro ⟨_, found, entries⟩
    exact ⟨_, found, by simp only [entries]; rfl⟩

/-- **A document is read back** from its value. -/
theorem ofJson?_toJson {v : Json} {d : Descriptor} (read : ofJson? v = some d) :
    ofJson? d.toJson = some d := by
  obtain ⟨_, -, entries⟩ := ofJson?_eq_some.1 read
  rw [d.toJson_eq]
  exact ofJson?_eq_some.2 ⟨_, fields?_present _ (by simp),
    withDefault_array entries fun _ _ => entryOf?_toJson⟩

/-! ## Texts -/

theorem properField_some {v : Json} (proper : v.Proper) : ProperField (some v) := by
  rintro _ ⟨rfl⟩
  exact proper

theorem properField_map {write : α → Json} (each : ∀ a, (write a).Proper) (a : Option α) :
    ProperField (a.map write) := by
  intro v mem
  obtain ⟨a, -, rfl⟩ := Option.map_eq_some_iff.1 mem
  exact each a

theorem proper_array {write : α → Json} {as : List α} (each : ∀ a ∈ as, (write a).Proper) :
    Json.Proper (.array (as.map write)) :=
  .array (List.forall_mem_map.2 each)

theorem properField_listField {write : α → Json} {as : List α}
    (each : ∀ a ∈ as, (write a).Proper) : ProperField (listField write as) := by
  cases as with
  | nil => nofun
  | cons a as => exact properField_some (proper_array each)

theorem proper_ofString (s : String) : (Json.ofString s).Proper := .string _

theorem proper_ofNat (n : Nat) : (Json.ofNat n).Proper := .number (Number.proper_ofNat n)

theorem properField_textField (text : String) : ProperField (textField text) := by
  unfold textField
  split
  · nofun
  · exact properField_some (proper_ofString text)

theorem GlobRule.proper_toJson (rule : GlobRule) : rule.toJson.Proper := by
  rw [toJson_eq]
  exact proper_present ⟨properField_some (proper_ofString _), properField_map proper_ofNat _,
    properField_some (.bool _)⟩

theorem RootElement.proper_toJson (root : RootElement) : root.toJson.Proper := by
  rw [toJson_eq]
  exact proper_present ⟨properField_some (proper_ofString _), properField_some (proper_ofString _)⟩

mutual

theorem MatchRule.proper_toJson : (rule : MatchRule) → rule.toJson.Proper
  | ⟨offset, kind, value, mask, children⟩ => by
      rw [toJson_eq]
      exact proper_present ⟨properField_some (proper_ofString _),
        properField_some (proper_ofString _), properField_some (proper_ofString _),
        properField_map proper_ofString _,
        properField_listField (MatchRule.forall_proper_toJson children)⟩

theorem MatchRule.forall_proper_toJson :
    (rules : List MatchRule) → ∀ rule ∈ rules, rule.toJson.Proper
  | [] => nofun
  | rule :: rules =>
      List.forall_mem_cons.2 ⟨rule.proper_toJson, MatchRule.forall_proper_toJson rules⟩

end

theorem MagicRule.proper_toJson (rule : MagicRule) : rule.toJson.Proper := by
  rw [toJson_eq]
  exact proper_present ⟨properField_map proper_ofNat _,
    properField_some (proper_array fun test _ => test.proper_toJson)⟩

mutual

theorem LayoutTest.proper_toJson : (test : LayoutTest) → test.toJson.Proper
  | ⟨path, kind, matchCase, executable, nonEmpty, mimetype, children⟩ => by
      rw [toJson_eq]
      exact proper_present ⟨properField_some (proper_ofString _), properField_map proper_ofString _,
        properField_some (.bool _), properField_some (.bool _), properField_some (.bool _),
        properField_map proper_ofString _,
        properField_listField (LayoutTest.forall_proper_toJson children)⟩

theorem LayoutTest.forall_proper_toJson :
    (tests : List LayoutTest) → ∀ test ∈ tests, test.toJson.Proper
  | [] => nofun
  | test :: tests =>
      List.forall_mem_cons.2 ⟨test.proper_toJson, LayoutTest.forall_proper_toJson tests⟩

end

theorem LayoutRule.proper_toJson (rule : LayoutRule) : rule.toJson.Proper := by
  rw [toJson_eq]
  exact proper_present ⟨properField_map proper_ofNat _,
    properField_some (proper_array fun test _ => test.proper_toJson)⟩

theorem Entry.proper_toJson (e : Entry) : e.toJson.Proper := by
  have texts (as : List String) : ProperField (listField Json.ofString as) :=
    properField_listField fun text _ => proper_ofString text
  rw [toJson_eq]
  exact proper_present ⟨properField_some (proper_ofString _), properField_textField _,
    properField_map proper_ofString _, properField_map proper_ofString _,
    properField_map proper_ofString _, properField_map proper_ofString _, texts _, texts _,
    properField_listField fun rule _ => rule.proper_toJson,
    properField_listField fun rule _ => rule.proper_toJson,
    properField_listField fun rule _ => rule.proper_toJson,
    properField_listField fun root _ => root.proper_toJson⟩

theorem proper_toJson (d : Descriptor) : d.toJson.Proper := by
  rw [toJson_eq]
  exact proper_present <| properField_some (proper_array fun e _ => e.proper_toJson)

theorem parse?_of_spelled {v : Json} {d : Descriptor} (described : ofJson? v = some d)
    {chars : List Char} (spelled : Json.parse? chars = some d.toJson) :
    parse? (String.ofList chars) = some d := by
  rw [parse?, String.toList_ofList, spelled, Option.bind_some, ofJson?_toJson described]

/-- **A document that has been read comes back from its text**, whether this is written with or
without white space, and loads from it as it did before. -/
theorem parse?_render {text : String} {d : Descriptor} (read : parse? text = some d) :
    ∀ written ∈ [d.render, d.toJson.renderPretty],
      parse? written = some d ∧ Database.ofJson written = Database.ofJson text := by
  obtain ⟨v, -, described⟩ := Option.bind_eq_some_iff.1 read
  have back : ∀ written ∈ [d.render, d.toJson.renderPretty], parse? written = some d := by
    simp only [List.forall_mem_cons, List.not_mem_nil, false_implies, implies_true, and_true]
    exact ⟨parse?_of_spelled described d.proper_toJson.parse?_compact,
      parse?_of_spelled described (d.proper_toJson.parse?_pretty 0)⟩
  refine fun written mem => ⟨back written mem, ?_⟩
  rw [Database.ofJson, Database.ofJson, back written mem, read]

/-- A document with what can be written in several ways: records as arrays, fields out of their
order, one that is passed over, one that is `null`, and a text that is empty. -/
def scrawled : Json :=
  .array [.array [.object [(some "since", .string none), (some "icon", .ofString ""),
    (some "magic", .array [.array [.ofNat 40, .array [.array [.ofString "0", .ofString "byte",
      .ofString "1", .null, .array [.array [.ofString "1", .ofString "byte", .ofString "2"]]]]]]),
    (some "acronym", .null), (some "type", .ofString "a/b")]]]

/-- What it is read as. -/
def engrossed : Descriptor where
  entries := [{
    name := "a/b"
    icon := some ""
    magic := [{
      priority := some 40
      tests := [{
        offset := "0"
        kind := "byte"
        value := "1"
        children := [{ offset := "1", kind := "byte", value := "2" }] }] }] }]

theorem proper_scrawled : scrawled.Proper := by
  have text (s : String) : (Json.ofString s).Proper := proper_ofString s
  have first : (Json.array [.ofString "1", .ofString "byte", .ofString "2"]).Proper :=
    proper_elements ⟨text _, text _, text _⟩
  have second : (Json.array [.ofString "0", .ofString "byte", .ofString "1", .null,
      .array [.array [.ofString "1", .ofString "byte", .ofString "2"]]]).Proper :=
    proper_elements ⟨text _, text _, text _, .null, proper_elements first⟩
  exact proper_elements (proper_elements (proper_members ⟨.string none, text _,
    proper_elements (proper_elements ⟨proper_ofNat 40, proper_elements second⟩), .null, text _⟩))

/-- The document comes back from the text of what it is read as. -/
theorem scrawled_engrossed :
    parse? scrawled.render = some engrossed ∧ parse? engrossed.render = some engrossed ∧
      parse? engrossed.toJson.renderPretty = some engrossed := by
  have read : parse? scrawled.render = some engrossed := by
    rw [parse?, Json.render, String.toList_ofList, proper_scrawled.parse?_compact]
    rfl
  have back := parse?_render read
  exact ⟨read, (back _ List.mem_cons_self).1,
    (back _ (List.mem_cons_of_mem _ List.mem_cons_self)).1⟩

end MediaSniff.Descriptor
