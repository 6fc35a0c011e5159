/-
# MediaSniff.Proofs.Descriptor.Merging — merging entry by entry

A document is merged at once, all entries of a type together. It can as well be read from its
beginning, with one merged entry for each type that has been met: the next entry is added to
that of its type, and those of the other types stay as they are (`mergeNext`). The result is
the same (`merge_eq_foldlM`). One step adds to each field of an entry in its own way, and each
of these ways makes of a list and one member more what merging makes of the longer list
(`combine_concat`).

So merging sees of a document only which types it names, in which order, and what it says
about each (`SayAlike`). How this is cut into entries, and how the entries of different types
stand among each other, makes no difference (`merge_of_sayAlike`).
-/
import MediaSniff.Proofs.Descriptor.GlobRules

set_option autoImplicit false

namespace MediaSniff

/-! ## Lists with one member more -/

/-- Put a member behind the others, unless it is there. -/
def addOnce (known : List String) (name : String) : List String :=
  if name ∈ known then known else known ++ [name]

theorem distinct_append (known names : List String) :
    distinct (known ++ names) = names.foldl addOnce (distinct known) := by
  induction names using List.reverseRecOn with
  | nil => rw [List.append_nil, List.foldl_nil]
  | append_singleton names name ih =>
      rw [← List.append_assoc, List.foldl_concat, ← ih, addOnce, distinct_eq_eraseDups,
        distinct_eq_eraseDups, eraseDups_concat]
      simp only [List.mem_eraseDups]

/-- The first text that is not empty is not empty. -/
theorem isEmpty_of_firstText? {texts : List String} {text : String}
    (first : firstText? texts = some text) : text.isEmpty = false := by
  simpa using List.find?_some first

theorem firstText?_append (known texts : List String) :
    firstText? (known ++ texts) = firstText? ((firstText? known).toList ++ texts) := by
  rw [firstText?, List.find?_append, ← firstText?]
  cases first : firstText? known with
  | none => rfl
  | some text =>
      rw [Option.some_or, Option.toList_some, List.singleton_append, firstText?,
        List.find?_cons_of_pos (by simp [isEmpty_of_firstText? first])]

theorem firstText_concat (known : List String) (text : String) :
    firstText (known ++ [text]) =
      if (firstText known).isEmpty then text else firstText known := by
  rw [firstText, firstText, firstText?_append]
  cases first : firstText? known with
  | none =>
      by_cases blank : text = ""
      · rw [blank]
        rfl
      · simp [firstText?, blank]
  | some known => simp [firstText?, isEmpty_of_firstText? first]

namespace Descriptor

/-- What is known of a type when one more entry about it has been read. -/
def Entry.add (known e : Entry) : Entry where
  name := known.name
  comment := if known.comment.isEmpty then e.comment else known.comment
  acronym := firstText? (known.acronym.toList ++ e.acronym.toList)
  expandedAcronym := firstText? (known.expandedAcronym.toList ++ e.expandedAcronym.toList)
  icon := firstText? (known.icon.toList ++ e.icon.toList)
  genericIcon := firstText? (known.genericIcon.toList ++ e.genericIcon.toList)
  aliases := e.aliases.foldl addOnce known.aliases
  subClassOf := e.subClassOf.foldl addOnce known.subClassOf
  globs := e.globs.foldl addGlob known.globs
  magic := known.magic ++ e.magic
  layouts := known.layouts ++ e.layouts
  rootElements := known.rootElements ++ e.rootElements

/-- **One entry more.** What all entries say about a type is what all but the last say and
what the last adds. -/
theorem combine_concat (name : String) (entries : List Entry) (e : Entry) :
    Entry.combine name (entries ++ [e]) = (Entry.combine name entries).add e := by
  simp only [Entry.combine, Entry.add, List.map_append, List.map_singleton,
    List.filterMap_eq_flatMap_toList, List.flatMap_append, List.flatMap_singleton, distinct_append,
    firstText_concat, List.foldl_append, firstText?_append (List.flatMap _ entries)]

/-! ## The merged entries with one entry more -/

/-- Add an entry to that of its type. A type that is new is put behind the others. -/
def addEntry : List Entry → Entry → List Entry
  | [], e => [({ name := e.name } : Entry).add e]
  | known :: others, e =>
      if known.name = e.name then known.add e :: others else known :: addEntry others e

theorem map_ite_of_notMem {names : List String} {name : String} (absent : name ∉ names)
    (f g : String → Entry) : (names.map fun n => if n = name then f n else g n) = names.map g := by
  apply List.map_congr_left
  intro n mem
  rw [if_neg]
  rintro rfl
  exact absent mem

theorem addEntry_map {names : List String} (once : names.Nodup) {about : String → Entry}
    (named : ∀ name, (about name).name = name) (e : Entry) :
    addEntry (names.map about) e =
      if e.name ∈ names then
        names.map fun name => if name = e.name then (about name).add e else about name
      else names.map about ++ [({ name := e.name } : Entry).add e] := by
  induction names with
  | nil => rfl
  | cons name names ih =>
      obtain ⟨new, once⟩ := List.nodup_cons.1 once
      rw [List.map_cons, addEntry, named]
      by_cases here : name = e.name
      · -- No later entry is about the type.
        rw [if_pos here, if_pos (here ▸ List.mem_cons_self), List.map_cons, if_pos here,
          map_ite_of_notMem (here ▸ new)]
      · rw [if_neg here, ih once]
        by_cases later : e.name ∈ names
        · rw [if_pos later, if_pos (List.mem_cons_of_mem _ later), List.map_cons, if_neg here]
        · have absent : e.name ∉ name :: names := by
            simpa [later] using fun same => here same.symm
          rw [if_neg later, if_neg absent, List.cons_append]

/-- What a document says about a type when an entry is put behind the others. -/
theorem about_concat (entries : List Entry) (e : Entry) (name : String) :
    about ⟨entries ++ [e]⟩ name =
      if name = e.name then (about ⟨entries⟩ name).add e else about ⟨entries⟩ name := by
  rw [about, List.filter_append]
  split
  · rename_i own
    rw [List.filter_singleton, own, beq_self_eq_true, cond_true, combine_concat]
    rfl
  · rename_i other
    have unread : (e.name == name) = false := by simpa using fun same => other same.symm
    rw [List.filter_singleton, unread, cond_false, List.append_nil]
    rfl

/-- **One step.** Adding an entry to what merging has made of those before it is what merging
makes of them all: the entry of its type takes it up, and no other changes. -/
theorem addEntry_about (entries : List Entry) (e : Entry) :
    addEntry ((typeNames ⟨entries⟩).map (about ⟨entries⟩)) e =
      (typeNames ⟨entries ++ [e]⟩).map (about ⟨entries ++ [e]⟩) := by
  rw [addEntry_map nodup_typeNames fun _ => rfl]
  have names : typeNames ⟨entries ++ [e]⟩ =
      if e.name ∈ typeNames ⟨entries⟩ then typeNames ⟨entries⟩
      else typeNames ⟨entries⟩ ++ [e.name] := by
    rw [typeNames, List.map_append, List.map_singleton, eraseDups_concat, typeNames]
    simp only [List.mem_eraseDups]
  rw [names, funext (about_concat entries e)]
  split
  · rfl
  · rename_i new
    have nothing : about ⟨entries⟩ e.name = { name := e.name } := by
      have unread : (entries.filter fun e' => e'.name == e.name) = [] := by
        rw [List.filter_eq_nil_iff]
        intro e' mem same
        exact new (mem_typeNames.2 ⟨e', mem, eq_of_beq same⟩)
      rw [about, unread]
      rfl
    rw [List.map_append, map_ite_of_notMem new, List.map_singleton, if_pos rfl, nothing]

/-- **All steps.** -/
theorem foldl_addEntry (entries : List Entry) :
    entries.foldl addEntry [] = (typeNames ⟨entries⟩).map (about ⟨entries⟩) := by
  induction entries using List.reverseRecOn with
  | nil => rfl
  | append_singleton entries e ih => rw [List.foldl_concat, ih, addEntry_about]

/-! ## Merging -/

/-- Read the next entry of a document, which must be about a media type. -/
def mergeNext (merged : List Entry) (e : Entry) : Except LoadError (List Entry) :=
  if isMediaType e.name then .ok (addEntry merged e) else .error (.invalidMediaType e.name)

theorem foldlM_mergeNext (merged entries : List Entry) :
    entries.foldlM mergeNext merged =
      match entries.find? fun e => !isMediaType e.name with
      | some e => .error (.invalidMediaType e.name)
      | none => .ok (entries.foldl addEntry merged) := by
  induction entries generalizing merged with
  | nil => rfl
  | cons e entries ih =>
      rw [List.foldlM_cons, mergeNext]
      by_cases valid : isMediaType e.name = true
      · rw [if_pos valid, List.find?_cons_of_neg (by simp [valid])]
        exact ih _
      · rw [if_neg valid, List.find?_cons_of_pos (by simp [valid])]
        rfl

/-- **Merging at once is merging entry by entry**, and both refuse the same name. -/
theorem merge_eq_foldlM (entries : List Entry) : merge entries = entries.foldlM mergeNext [] := by
  rw [foldlM_mergeNext, foldl_addEntry, merge, groups_eq, List.map_map]
  rfl

/-- Two documents say the same about the type of a name: their entries about it, put one
behind the other, list the same, and the first of the texts that can be given once is the
same. -/
structure SayAlike (d d' : Descriptor) (name : String) : Prop where
  comment : firstText? (d.said (fun e => [e.comment]) name) =
    firstText? (d'.said (fun e => [e.comment]) name)
  acronym : firstText? (d.said (·.acronym.toList) name) =
    firstText? (d'.said (·.acronym.toList) name)
  expandedAcronym : firstText? (d.said (·.expandedAcronym.toList) name) =
    firstText? (d'.said (·.expandedAcronym.toList) name)
  icon : firstText? (d.said (·.icon.toList) name) = firstText? (d'.said (·.icon.toList) name)
  genericIcon : firstText? (d.said (·.genericIcon.toList) name) =
    firstText? (d'.said (·.genericIcon.toList) name)
  aliases : d.said (·.aliases) name = d'.said (·.aliases) name
  subClassOf : d.said (·.subClassOf) name = d'.said (·.subClassOf) name
  globs : d.said (·.globs) name = d'.said (·.globs) name
  magic : d.said (·.magic) name = d'.said (·.magic) name
  layouts : d.said (·.layouts) name = d'.said (·.layouts) name
  rootElements : d.said (·.rootElements) name = d'.said (·.rootElements) name

theorem SayAlike.about_eq {d d' : Descriptor} {name : String} (alike : SayAlike d d' name) :
    d.about name = d'.about name := by
  have texts : ∀ d : Descriptor, d.about name = {
      name
      comment := (firstText? (d.said (fun e => [e.comment]) name)).getD ""
      acronym := firstText? (d.said (·.acronym.toList) name)
      expandedAcronym := firstText? (d.said (·.expandedAcronym.toList) name)
      icon := firstText? (d.said (·.icon.toList) name)
      genericIcon := firstText? (d.said (·.genericIcon.toList) name)
      aliases := distinct (d.said (·.aliases) name)
      subClassOf := distinct (d.said (·.subClassOf) name)
      globs := unite (d.said (·.globs) name)
      magic := d.said (·.magic) name
      layouts := d.said (·.layouts) name
      rootElements := d.said (·.rootElements) name } := by
    intro d
    simp only [about, Entry.combine, firstText, said, List.map_eq_flatMap,
      List.filterMap_eq_flatMap_toList]
  rw [texts d, texts d', alike.comment, alike.acronym, alike.expandedAcronym, alike.icon,
    alike.genericIcon, alike.aliases, alike.subClassOf, alike.globs, alike.magic, alike.layouts,
    alike.rootElements]

/-- **Merging depends only on what is said about each type.** Two documents whose entries are
all about media types, that name them first in the same order and say the same about each,
merge to one result, and both succeed; and so they do entry by entry. -/
theorem merge_of_sayAlike {d d' : Descriptor} (valid : ∀ e ∈ d.entries, isMediaType e.name = true)
    (valid' : ∀ e ∈ d'.entries, isMediaType e.name = true) (names : d.typeNames = d'.typeNames)
    (alike : ∀ name ∈ d.typeNames, SayAlike d d' name) :
    ∃ merged, merge d.entries = .ok merged ∧ merge d'.entries = .ok merged ∧
      d.entries.foldlM mergeNext [] = .ok merged ∧
      d'.entries.foldlM mergeNext [] = .ok merged := by
  have same : d.typeNames.map d.about = d'.typeNames.map d'.about := by
    rw [← names]
    exact List.map_congr_left fun name mem => (alike name mem).about_eq
  have first := merge_eq_ok.2 ⟨valid, rfl⟩
  have second := merge_eq_ok.2 ⟨valid', same⟩
  exact ⟨_, first, second, merge_eq_foldlM d.entries ▸ first, merge_eq_foldlM d'.entries ▸ second⟩

/-- A type that is spoken of twice, with another type in between. -/
def scattered : Descriptor where
  entries :=
    [{ name := "text/x-a", aliases := ["text/x-b"]
       globs := [{ pattern := "*.a", weight := some 40 }]
       magic := [{ tests := [{ offset := "0", kind := "string", value := "a" }] }] },
     { name := "text/x-c", comment := "c" },
     { name := "text/x-a", comment := "second", acronym := some "A"
       aliases := ["text/x-b", "text/x-d"]
       globs := [{ pattern := "*.a", weight := some 60 }, { pattern := "*.aa" }] }]

/-- The same, cut in another way. -/
def gathered : Descriptor where
  entries :=
    [{ name := "text/x-a", acronym := some "", aliases := ["text/x-b", "text/x-b"]
       globs := [{ pattern := "*.a", weight := some 40 },
         { pattern := "*.a", weight := some 60 }] },
     { name := "text/x-a", comment := "second", acronym := some "A", aliases := ["text/x-d"]
       globs := [{ pattern := "*.aa" }]
       magic := [{ tests := [{ offset := "0", kind := "string", value := "a" }] }] },
     { name := "text/x-c", comment := "c" },
     { name := "text/x-c", comment := "not the first" }]

/-- Both come to the same two types. -/
theorem scattered_gathered :
    ((∀ e ∈ scattered.entries, isMediaType e.name = true) ∧
      (∀ e ∈ gathered.entries, isMediaType e.name = true) ∧
      scattered.typeNames = gathered.typeNames ∧
      ∀ name ∈ scattered.typeNames, SayAlike scattered gathered name) ∧
    ∃ merged, merge scattered.entries = .ok merged ∧ merge gathered.entries = .ok merged := by
  have valid : ∀ e ∈ scattered.entries, isMediaType e.name = true := by decide +kernel
  have valid' : ∀ e ∈ gathered.entries, isMediaType e.name = true := by decide +kernel
  have types : scattered.typeNames = ["text/x-a", "text/x-c"] := by decide +kernel
  have names : scattered.typeNames = gathered.typeNames := by decide +kernel
  have alike : ∀ name ∈ scattered.typeNames, SayAlike scattered gathered name := by
    rw [types, List.forall_mem_cons, List.forall_mem_singleton]
    constructor
    · constructor <;> rfl
    · constructor <;> rfl
  obtain ⟨merged, first, second, -, -⟩ := merge_of_sayAlike valid valid' names alike
  exact ⟨⟨valid, valid', names, alike⟩, merged, first, second⟩

end Descriptor

end MediaSniff
