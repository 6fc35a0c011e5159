/-
# MediaSniff.Proofs.Database.XmlWindow — a wider window retracts nothing

A wider window shows further pieces of markup and leaves those in front as they are. A root
element that was found stays the first one, and otherwise the scan goes on from what it knew.

So what is known of a document only grows with the window, from nothing through being XML to
being of a registered kind (`classifyXml_of_wider`). Were a root element registered for one
of the first two answers, finding it could not be told from finding none; that is why the
databases are taken that register none so.
-/
import MediaSniff.Proofs.Database.Answers
import MediaSniff.Proofs.Xml.Decoding

set_option autoImplicit false

namespace MediaSniff

namespace Database

variable {d : Descriptor} {db : Database}

/-- A greater limit gives a wider window. -/
theorem xmlWindow_mono {l₁ l₂ : Nat} (le : l₁ ≤ l₂) :
    xmlWindow (some l₁) ≤ xmlWindow (some l₂) := by
  simp only [xmlWindow, Option.elim_some]
  omega

/-- No window is wider than the one without a limit. -/
theorem xmlWindow_le (limit : Option Nat) : xmlWindow limit ≤ xmlWindow none := by
  cases limit with
  | none => exact le_rfl
  | some l => exact min_le_right l Xml.scanLimit

theorem exists_markups_of_wider (data : Bytes) {l₁ l₂ : Option Nat}
    (wider : xmlWindow l₁ ≤ xmlWindow l₂) :
    ∃ later, Xml.markups (Xml.decode (data.take (xmlWindow l₂))) =
      Xml.markups (Xml.decode (data.take (xmlWindow l₁))) ++ later := by
  obtain ⟨later, whole⟩ := Xml.markups_mono (Xml.decode_take_mono data wider)
  exact ⟨later, whole.symm⟩

/-- **A wider window retracts nothing.** An answer other than the unknown type and the type
of XML stays, and XML does not become unknown. Windows are told by limits, and a limit that
is greater or missing gives one that is no narrower. -/
theorem classifyXml_of_wider (loaded : ofDescriptor d = .ok db)
    (telling : ∀ r ∈ db.roots.roots, r.owner ≠ db.sentinels.unknown ∧ r.owner ≠ db.sentinels.xml)
    (data : Bytes) {l₁ l₂ : Option Nat} (wider : xmlWindow l₁ ≤ xmlWindow l₂) :
    (db.classifyXml data l₁ ≠ db.sentinels.unknown → db.classifyXml data l₁ ≠ db.sentinels.xml →
      db.classifyXml data l₂ = db.classifyXml data l₁) ∧
    (db.classifyXml data l₁ = db.sentinels.xml →
      db.classifyXml data l₂ ≠ db.sentinels.unknown) := by
  obtain ⟨l⟩ := ofDescriptor_eq_ok.1 loaded
  have sentinels : db.roots.sentinels = db.sentinels := l.sentinels_tables.2.2.1
  have apart : db.sentinels.xml ≠ db.sentinels.unknown := by
    have five := l.nodup_sentinels
    simp only [List.nodup_cons, List.mem_cons, not_or] at five
    exact Ne.symm five.1.2.2.2.1
  obtain ⟨later, whole⟩ := exists_markups_of_wider data wider
  simp only [classifyXml, Xml.RootTable.classify, whole, sentinels]
  generalize Xml.markups (Xml.decode (data.take (xmlWindow l₁))) = shown
  rcases db.roots.ofMarkups_append db.sentinels.unknown shown with ⟨r, mem, ends⟩ | ⟨either, goesOn⟩
  · have narrow : db.roots.ofMarkups db.sentinels.unknown shown = r.owner := by
      simpa using ends []
    rw [narrow, ends later]
    exact ⟨fun _ _ => rfl, fun xml => absurd xml (telling r mem).2⟩
  · rw [sentinels] at either
    refine ⟨fun known other => (either.elim known other).elim, fun xml => ?_⟩
    rw [goesOn later, xml]
    rcases db.roots.ofMarkups_cases db.sentinels.xml later with ⟨r, mem, found⟩ | stays | stays
    · rw [found]
      exact (telling r mem).1
    · rwa [stays]
    · rwa [stays, sentinels]

/-- The one root element of the shelf, and its sentinels. -/
theorem roots_shelf (loaded : ofDescriptor shelf = .ok db) :
    db.roots = ⟨[⟨"", "notes", ⟨6⟩⟩], ⟨⟨0⟩, ⟨1⟩, ⟨2⟩, ⟨3⟩, ⟨4⟩⟩⟩ := by
  obtain ⟨l⟩ := ofDescriptor_eq_ok.1 loaded
  have holds := l.inventory
  have roots : db.roots.roots = [⟨"", "notes", ⟨6⟩⟩] := by
    refine (List.singleton_perm.1 ?_).symm
    convert holds.roots using 1
    decide +kernel
  have sentinels : db.roots.sentinels = ⟨⟨0⟩, ⟨1⟩, ⟨2⟩, ⟨3⟩, ⟨4⟩⟩ := by
    rw [l.sentinels_tables.2.2.1, holds.sentinels]
    decide +kernel
  rw [← roots, ← sentinels]

/-- A window that ends behind the comment shows XML; one that shows the element as well
settles the answer. -/
theorem shelf_wider :
    ∃ db, ofDescriptor shelf = .ok db ∧
      (∀ r ∈ db.roots.roots, r.owner ≠ db.sentinels.unknown ∧ r.owner ≠ db.sentinels.xml) ∧
      db.classifyXml (Text.utf8 "<!--a--><notes><note>") (some 8) = db.sentinels.xml ∧
      db.classifyXml (Text.utf8 "<!--a--><notes><note>") (some 12) ≠ db.sentinels.unknown ∧
      db.classifyXml (Text.utf8 "<!--a--><notes><note>") (some 15) = ⟨6⟩ ∧
      db.classifyXml (Text.utf8 "<!--a--><notes><note>") none = ⟨6⟩ := by
  obtain ⟨db, loaded⟩ := loads_iff.2 (loadable_of_sound shelf_sound)
  obtain ⟨l⟩ := ofDescriptor_eq_ok.1 loaded
  have roots := roots_shelf loaded
  have sentinels : db.sentinels = ⟨⟨0⟩, ⟨1⟩, ⟨2⟩, ⟨3⟩, ⟨4⟩⟩ := by
    rw [← l.sentinels_tables.2.2.1, roots]
  have telling : ∀ r ∈ db.roots.roots,
      r.owner ≠ db.sentinels.unknown ∧ r.owner ≠ db.sentinels.xml := by
    rw [roots, sentinels]
    decide
  have comment :
      db.classifyXml (Text.utf8 "<!--a--><notes><note>") (some 8) = db.sentinels.xml := by
    rw [classifyXml, roots, sentinels]
    decide +kernel
  have element : db.classifyXml (Text.utf8 "<!--a--><notes><note>") (some 15) = ⟨6⟩ := by
    rw [classifyXml, roots]
    decide +kernel
  refine ⟨db, loaded, telling, comment, ?_, element, ?_⟩
  · exact (classifyXml_of_wider loaded telling _ (xmlWindow_mono (by decide))).2 comment
  · rw [← element]
    refine (classifyXml_of_wider loaded telling _ (xmlWindow_le _)).1 ?_ ?_ <;>
      rw [element, sentinels] <;> decide

end Database

end MediaSniff
