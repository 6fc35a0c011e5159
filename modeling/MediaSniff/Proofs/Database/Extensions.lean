/-
# MediaSniff.Proofs.Database.Extensions — every listed ending is found

A record lists the endings that the filename rules of its type speak of. It reads them off
the patterns by itself, apart from the compiler of rules, and lowercases them by themselves,
where the compiler lowercases the whole pattern. The two stay in step: a name that ends with
a listed ending is accepted by the rule that the ending stems from (`extensions_found`).

An ending is lowercased already, so it stays as it is behind whatever name it stands
(`Glob.acceptsName_lowered`). This is why endings do not have the fault of the patterns that
they are read off, which may overlook names spelled in capitals.
-/
import MediaSniff.Database.Classify
import MediaSniff.Proofs.Database.Faithful
import MediaSniff.Proofs.Glob.Spelling

set_option autoImplicit false

namespace MediaSniff.Database

open Descriptor (GlobRule)

variable {d : Descriptor} {db : Database}

/-! ## Endings -/

/-- **An ending** is what a pattern has behind its star, in the case in which its rule looks
at names. -/
theorem exists_of_endingOf? {rule : GlobRule} {ending : String}
    (read : endingOf? rule = some ending) :
    ∃ text, rule.pattern.toList = '*' :: text ∧ Glob.Plain text ∧
      ending.toList = if rule.caseSensitive then text else Text.lowerAfter [] text := by
  unfold endingOf? at read
  split at read
  · rename_i c cs written
    dsimp only at read
    split at read
    · cases read
    · rename_i unmarked
      cases read
      refine ⟨'.' :: c :: cs, written, ?_, ?_⟩
      · intro m mem marked
        exact unmarked (List.any_eq_true.2 ⟨m, mem, by simpa [or_assoc] using marked⟩)
      · split
        · exact String.toList_ofList
        · rw [Text.lowercase, String.toList_ofList, String.toList_ofList]
  · cases read

/-- A rule that a document leaves a type with is compiled, under some weight. -/
theorem Inventory.exists_glob (holds : Inventory d db) {name : String} {rule : GlobRule}
    (mem : rule ∈ (d.about name).globs) :
    ∃ g ∈ db.globs.rules, ∃ weight,
      Glob.compile rule.pattern rule.caseSensitive weight (d.typeId name) = .ok g := by
  have keyed : (name, rule.key) ∈ d.globKeys := by
    have key : rule.key ∈ ((d.about name).globs).map (·.key) := List.mem_map_of_mem mem
    rw [Descriptor.about_globs, Descriptor.map_key_unite, List.mem_eraseDups] at key
    obtain ⟨rule', said, same⟩ := List.mem_map.1 key
    exact Descriptor.mem_globKeys.2 ⟨rule', Descriptor.mem_said.1 said, same⟩
  have outcome := holds.globs.mem_iff.1 (List.mem_map_of_mem keyed)
  obtain ⟨g, filed, compiled⟩ := List.mem_map.1 outcome
  exact ⟨g, filed, _, compiled.symm⟩

/-- **The rule of a listed ending** accepts every name with that ending. -/
theorem exists_glob_of_extension (loaded : ofDescriptor d = .ok db) {id : TypeId} {r : TypeRecord}
    (found : db.registry.get? id = some r) {ending : String} (listed : ending ∈ r.extensions)
    (front : String) :
    ∃ g ∈ db.globs.rules, g.owner = id ∧ g.acceptsName (front ++ ending) = true := by
  obtain ⟨l⟩ := ofDescriptor_eq_ok.1 loaded
  have holds := l.inventory
  rw [holds.registry] at found
  obtain ⟨name, -, rfl, rfl⟩ := Descriptor.exists_name_of_get? found
  obtain ⟨rule, mem, read⟩ := List.mem_filterMap.1 (mem_distinct.1 listed)
  obtain ⟨text, asked, plain, spelled⟩ := exists_of_endingOf? read
  obtain ⟨g, filed, weight, compiled⟩ := holds.exists_glob mem
  refine ⟨g, filed, ?_, Glob.acceptsName_lowered plain compiled asked front.toList ?_⟩
  · obtain ⟨-, -, shape, -, rfl⟩ := Glob.compile_eq_ok.1 compiled
    rfl
  · rw [String.toList_append, spelled]

/-! ## Names with a listed ending -/

/-- **Every listed ending is found.** In a database that loads, a name with an ending that the
record of a type lists has a candidate of that type. All its candidates are those of rules
that accept it, with a weight of at least one, and its type is that of such a rule: it does
not fall back on the unknown type, whose candidate has the weight zero. -/
theorem extensions_found (loaded : ofDescriptor d = .ok db) {id : TypeId} {r : TypeRecord}
    (found : db.registry.get? id = some r) {ending : String} (listed : ending ∈ r.extensions)
    (front : String) :
    (∃ c ∈ db.globs.candidates (front ++ ending), c.type = id) ∧
    (∀ c ∈ db.globs.candidates (front ++ ending), 1 ≤ c.weight ∧
      ∃ g ∈ db.globs.rules, g.acceptsName (front ++ ending) = true ∧ g.candidate = c) ∧
    ∃ c ∈ db.globs.candidates (front ++ ending), c.type = db.classifyName (front ++ ending) := by
  obtain ⟨g, filed, owner, accepts⟩ := exists_glob_of_extension loaded found listed front
  obtain ⟨l⟩ := ofDescriptor_eq_ok.1 loaded
  have rules : ∀ g, g ∈ db.globs.rules ↔ g ∈ l.rules.globs := by
    intro g
    rw [l.globs_eq]
    exact (Glob.Index.rules_ofList _ _).mem_iff
  have candidates : ∀ c, c ∈ db.globs.candidates (front ++ ending) ↔
      ∃ g ∈ db.globs.rules, g.acceptsName (front ++ ending) = true ∧ g.candidate = c := by
    intro c
    simp only [rules]
    rw [l.globs_eq]
    exact Glob.mem_candidates_iff _ ⟨g, (rules g).1 filed, accepts⟩
  refine ⟨⟨g.candidate, (candidates _).2 ⟨g, filed, accepts, rfl⟩, owner⟩, fun c mem => ?_,
    db.globs.exists_best _⟩
  obtain ⟨g', filed', accepts', rfl⟩ := (candidates c).1 mem
  obtain ⟨k, inside, rule, -, compiled⟩ := l.exists_globRule ((rules g').1 filed')
  refine ⟨?_, g', filed', accepts', rfl⟩
  obtain ⟨⟨low, -⟩, -, shape, -, rfl⟩ := Glob.compile_eq_ok.1 compiled
  exact low

/-- A name in capitals with the ending of notes speaks for them. -/
theorem note_found :
    ∃ db r, ofDescriptor shelf = .ok db ∧ db.registry.get? ⟨5⟩ = some r ∧
      ".note" ∈ r.extensions ∧ ∃ c ∈ db.globs.candidates ("TO DO" ++ ".note"), c.type = ⟨5⟩ := by
  obtain ⟨db, loaded⟩ := loads_iff.2 (loadable_of_sound shelf_sound)
  obtain ⟨l⟩ := ofDescriptor_eq_ok.1 loaded
  have declared : "text/x-note" ∈ shelf.typeNames := by decide +kernel
  have number : shelf.typeId "text/x-note" = ⟨5⟩ := by decide +kernel
  have found : db.registry.get? ⟨5⟩ = some (shelf.record "text/x-note") := by
    rw [l.inventory.registry, ← number]
    exact Descriptor.get?_typeId declared
  have read : ".note" ∈ (shelf.about "text/x-note").globs.filterMap endingOf? := by decide +kernel
  have listed : ".note" ∈ (shelf.record "text/x-note").extensions := mem_distinct.2 read
  exact ⟨db, _, loaded, found, listed, (extensions_found loaded found listed "TO DO").1⟩

end MediaSniff.Database
