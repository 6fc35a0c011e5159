/-
# MediaSniff.Proofs.Database.TypeTable — the table and the registry number alike

A table of names and comments is read without the rules of a document, by a reader of its own.
It takes each document for what the other reader takes it for: where both read an entry, both
find the same name and the same comment (`row_of_entryOf?`). And both put the entries together
in the same way, so what the table says row by row the registry says record by record
(`rows_eq_records`).

A table can as well be filled row by row, where a later row only gives a comment that is still
missing (`foldl_addRow`).
-/
import MediaSniff.Proofs.Database.Faithful
import MediaSniff.Proofs.Descriptor.Merging
import MediaSniff.Proofs.Descriptor.RoundTrip
import MediaSniff.TypeTable.Read

set_option autoImplicit false

namespace MediaSniff.TypeTable

open Descriptor (Entry entryOf?)

/-! ## Tables of entries -/

/-- What a table says of an entry. -/
def rowOf (e : Entry) : TypeRow := ⟨e.name, e.comment⟩

/-- **The table of entries** lists the types of a document with what it says about each. -/
theorem ofRows_map_rowOf (entries : List Entry) :
    ofRows (entries.map rowOf) =
      ((Descriptor.typeNames ⟨entries⟩).map (Descriptor.about ⟨entries⟩)).map rowOf := by
  rw [ofRows, groups_eq, List.map_map, List.map_map, List.map_map, Descriptor.typeNames]
  refine List.map_congr_left fun name _ => ?_
  simp only [Function.comp_apply, List.filter_map, List.map_map]
  rfl

/-- Add a row to that of its type. A type that is new is put behind the others. -/
def addRow : List TypeRow → TypeRow → List TypeRow
  | [], row => [row]
  | known :: others, row =>
      if known.name = row.name then
        { known with comment := if known.comment.isEmpty then row.comment else known.comment } ::
          others
      else known :: addRow others row

theorem addRow_map_rowOf (known : List Entry) (e : Entry) :
    addRow (known.map rowOf) (rowOf e) = (Descriptor.addEntry known e).map rowOf := by
  induction known with
  | nil => rfl
  | cons first others ih =>
      rw [List.map_cons, addRow, Descriptor.addEntry, ih]
      show (if first.name = e.name then _ else _) = _
      split <;> rfl

/-- **A table is filled row by row.** A row of a type that is known gives it a comment, if it
has none. -/
theorem foldl_addRow (rows : List TypeRow) : rows.foldl addRow [] = ofRows rows := by
  -- Rows are what a table says of entries that say nothing else.
  let entries : List Entry := rows.map fun row => { name := row.name, comment := row.comment }
  have said : entries.map rowOf = rows := by
    rw [List.map_map]
    exact List.map_id' rows
  have steps (known : List Entry) :
      (entries.map rowOf).foldl addRow (known.map rowOf) =
        (entries.foldl Descriptor.addEntry known).map rowOf := by
    induction entries generalizing known with
    | nil => rfl
    | cons e entries ih =>
        rw [List.map_cons, List.foldl_cons, addRow_map_rowOf, ih, List.foldl_cons]
  rw [← said, ofRows_map_rowOf, ← Descriptor.foldl_addEntry]
  exact steps []

/-! ## Two readers -/

theorem string?_eq_text? : Json.string? = Json.text? := by
  funext v
  cases v <;> rfl

/-- What is a member of an object is. -/
theorem exists_object_of_member? {key : String} {v w : Json} (found : v.member? key = some w) :
    ∃ members, v = .object members := by
  cases v with
  | object members => exact ⟨members, rfl⟩
  | _ => cases found

/-- A text that may be missing is found by both readers, or missed. -/
theorem getD_of_withDefault {f : Option Json} {text : String}
    (read : Json.withDefault "" Json.text? f = some text) :
    (f.bind Json.text?).getD "" = text := by
  cases f with
  | none => exact Option.some.inj read
  | some v =>
      rw [Option.bind_some]
      exact congrArg (·.getD "") read

/-- **Both readers take an entry for the same**: the one that reads all of it, and the one that
looks for its name and its comment. -/
theorem row_of_entryOf? {levels index : Nat} {v : Json} {e : Entry} {r : TypeRow}
    (described : entryOf? (levels + 1) v = some e) (read : row index v = .ok r) :
    r = rowOf e := by
  unfold row at read
  rw [string?_eq_text?] at read
  cases named : (v.member? "type").bind Json.text? with
  | none =>
      rw [named] at read
      cases read
  | some name =>
      obtain ⟨w, found, -⟩ := Option.bind_eq_some_iff.1 named
      obtain ⟨members, rfl⟩ := exists_object_of_member? found
      obtain ⟨_, _, _, _, _, _, _, _, _, _, _, _, fields, name', comment, -⟩ :=
        Descriptor.entryOf?_eq_some.1 described
      have values := Json.member?_of_fields? fields
      simp only [Descriptor.entryFields, List.forall₂_cons] at values
      obtain ⟨rfl, rfl, -⟩ := values
      obtain rfl : name = e.name := Option.some.inj (named.symm.trans name')
      rw [named, getD_of_withDefault comment] at read
      dsimp only at read
      split at read
      · exact (Except.ok.inj read).symm
      · cases read

theorem rowsFrom_of_entries {levels index : Nat} {vs : List Json} {entries : List Entry}
    {rows : List TypeRow} (described : vs.mapM (entryOf? (levels + 1)) = some entries)
    (read : rowsFrom index vs = .ok rows) : rows = entries.map rowOf := by
  have each := Json.mapM_eq_some.1 described
  induction each generalizing index rows with
  | nil =>
      cases read
      rfl
  | @cons v e vs entries here later ih =>
      rw [rowsFrom] at read
      cases first : row index v with
      | error cause =>
          rw [first] at read
          cases read
      | ok r =>
          rw [first] at read
          dsimp only at read
          cases others : rowsFrom (index + 1) vs with
          | error cause =>
              rw [others] at read
              cases read
          | ok rest =>
              rw [others] at read
              cases read
              rw [row_of_entryOf? here first, ih (Json.mapM_eq_some.2 later) others, List.map_cons]

/-- **Both readers take a document for the same list of entries.** -/
theorem parse_of_described {text : String} {d : Descriptor} {table : List TypeRow}
    (described : Descriptor.parse? text = some d) (read : parse text = .ok table) :
    table = (d.typeNames.map d.about).map rowOf := by
  unfold parse at read
  split at read
  · cases read
  · rename_i document whole
    split at read
    · cases read
    · rename_i vs listed
      obtain ⟨v, spelled, fields⟩ := Option.bind_eq_some_iff.1 described
      obtain ⟨same, -⟩ := Option.filter_eq_some_iff.1 whole
      obtain rfl : document = v := Option.some.inj (same.symm.trans spelled)
      obtain ⟨w, found, elements⟩ := Option.bind_eq_some_iff.1 listed
      obtain ⟨members, rfl⟩ := exists_object_of_member? found
      obtain ⟨_, field, entries⟩ := Descriptor.ofJson?_eq_some.1 fields
      have values := Json.member?_of_fields? field
      simp only [List.forall₂_cons] at values
      obtain ⟨rfl, -⟩ := values
      rw [found] at entries
      cases w with
      | array elements' =>
          cases elements
          cases rows : rowsFrom 0 vs with
          | error cause =>
              rw [rows] at read
              cases read
          | ok rows' =>
              rw [rows] at read
              cases read
              rw [rowsFrom_of_entries entries rows, ofRows_map_rowOf]
      | _ => cases elements

/-! ## The table and the registry -/

/-- **The table and the registry number and describe types alike.** -/
theorem rows_eq_records {text : String} {table : List TypeRow} {db : Database}
    (read : parse text = .ok table) (loaded : Database.ofJson text = .ok db) :
    table.length = db.registry.size ∧
    (∀ id, (db.registry.get? id).map (fun r => (⟨r.name, r.comment⟩ : TypeRow)) =
      table[id.index]?) ∧
    ∀ id r, db.registry.get? id = some r → commentFor? table r.name = some r.comment := by
  unfold Database.ofJson at loaded
  split at loaded
  · rename_i d described
    obtain ⟨l⟩ := Database.ofDescriptor_eq_ok.1 loaded
    have rows := parse_of_described described read
    rw [l.inventory.registry, rows]
    refine ⟨?_, fun id => ?_, fun id r found => ?_⟩
    · rw [Descriptor.size_registry, List.length_map, List.length_map]
    · rw [Descriptor.get?_registry, Option.map_map, List.getElem?_map, List.getElem?_map,
        Option.map_map]
      rfl
    · obtain ⟨name, mem, -, rfl⟩ := Descriptor.exists_name_of_get? found
      have first : (d.typeNames.find? fun name' => (rowOf (d.about name')).name == name) =
          some name := by
        show (d.typeNames.find? fun name' => name' == name) = some name
        rw [Descriptor.find?_beq_eq, if_pos mem]
      rw [commentFor?, List.map_map, List.find?_map]
      exact congrArg (Option.map _) (congrArg (Option.map _) first)
  · cases loaded

/-- The sentinels, and a type of which the first entry gives no comment, the second one and the
third another. -/
def remarks : Descriptor where
  entries := (Descriptor.sentinelNames.map fun name => { name }) ++
    [{ name := "text/x-a", globs := [{ pattern := "*.a" }] }, { name := "text/x-b" },
     { name := "text/x-a", comment := "first" }, { name := "text/x-a", comment := "second" }]

theorem remarks_sound : remarks.Sound where
  toRulesValid := by decide
  once := by decide
  acyclic := Descriptor.acyclic_of_index_lt fun _ _ ⟨_, mem, _⟩ => nomatch mem
  sentinels := by decide

/-- The table has the first comment as well. -/
theorem remarks_comment :
    ∃ table db, parse remarks.render = .ok table ∧ Database.ofJson remarks.render = .ok db ∧
      table.length = db.registry.size ∧ commentFor? table "text/x-a" = some "first" := by
  have spelled : Json.parse? remarks.render.toList = some remarks.toJson := by
    rw [Descriptor.render, Json.render, String.toList_ofList]
    exact remarks.proper_toJson.parse?_compact
  have described : Descriptor.parse? remarks.render = some remarks := by
    rw [Descriptor.parse?, spelled]
    rfl
  obtain ⟨db, loads⟩ := Database.loads_iff.2 (Database.loadable_of_sound remarks_sound)
  have loaded : Database.ofJson remarks.render = .ok db := by
    rw [Database.ofJson, described]
    exact loads
  have whole : Json.parseWhole? remarks.render = some remarks.toJson := by
    rw [Json.parseWhole?, spelled, Option.filter_some, if_pos (by decide)]
  obtain ⟨rows, listed⟩ : ∃ rows, rowsFrom 0 (remarks.entries.map Entry.toJson) = .ok rows := by
    decide
  have read : parse remarks.render = .ok (ofRows rows) := by
    have types : (remarks.toJson.member? "types").bind Json.elements? =
        some (remarks.entries.map Entry.toJson) := rfl
    rw [parse, whole]
    dsimp only
    rw [types]
    dsimp only
    rw [listed]
    rfl
  obtain ⟨l⟩ := Database.ofDescriptor_eq_ok.1 loads
  obtain ⟨size, -, comments⟩ := rows_eq_records read loaded
  have declared : "text/x-a" ∈ remarks.typeNames := by decide
  have found : db.registry.get? (remarks.typeId "text/x-a") = some (remarks.record "text/x-a") := by
    rw [l.inventory.registry]
    exact Descriptor.get?_typeId declared
  have comment : (remarks.record "text/x-a").comment = "first" := by decide
  have own := comments _ _ found
  rw [comment] at own
  exact ⟨_, db, read, loaded, size, own⟩

end MediaSniff.TypeTable
