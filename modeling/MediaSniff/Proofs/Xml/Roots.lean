/-
# MediaSniff.Proofs.Xml.Roots — what markup can say

An element that speaks for a type speaks for the owner of a root element that is registered
(`exists_root_of_ofElement?`). The scan goes from piece to piece: either such an element is
found, and whatever follows does not matter, or it goes on from what is known so far, which
is what was known before or that the document is XML (`ofMarkups_append`). Where there is
such an element among the pieces, the scan ends there at the latest
(`exists_ofMarkups_append`).
-/
import MediaSniff.Xml.RootTable

set_option autoImplicit false

namespace MediaSniff.Xml

/-- The element that a piece of markup begins. -/
def Markup.element? : Markup → Option StartTag
  | .startTag text => StartTag.ofText? text
  | _ => none

theorem Markup.exists_of_element? {m : Markup} {e : StartTag} (element : m.element? = some e) :
    ∃ text, m = .startTag text ∧ StartTag.ofText? text = some e := by
  cases m with
  | startTag text => exact ⟨text, rfl, element⟩
  | _ => cases element

namespace RootTable

/-- An element speaks for the owner of a root element that is registered. -/
theorem exists_root_of_ofElement? {t : RootTable} {e : StartTag} {id : TypeId}
    (found : t.ofElement? e = some id) : ∃ r ∈ t.roots, r.owner = id := by
  have owner : ∀ {p : Root → Bool} {id : TypeId}, (t.roots.find? p).map (·.owner) = some id →
      ∃ r ∈ t.roots, r.owner = id := by
    intro p id first
    obtain ⟨r, here, rfl⟩ := Option.map_eq_some_iff.1 first
    exact ⟨r, List.mem_of_find?_eq_some here, rfl⟩
  obtain ⟨byName, named, rfl⟩ := Option.map_eq_some_iff.1 found
  cases spaced : e.namespaceUri?.bind fun uri => t.ofNamespace? (String.ofList uri) with
  | none =>
      rw [ofLocalName?] at named
      split at named
      · cases named
      · exact owner named
  | some byNamespace =>
      obtain ⟨uri, -, registered⟩ := Option.bind_eq_some_iff.1 spaced
      rw [ofNamespace?] at registered
      split at registered
      · cases registered
      · exact owner registered

/-- **A step of the scan over one piece**: it ends at a root element, or it goes on, from what
was known or from XML. Which of these it is depends on the piece alone. -/
theorem ofMarkups_cons (t : RootTable) (m : Markup) :
    (∃ r ∈ t.roots, ∀ known later, t.ofMarkups known (m :: later) = r.owner) ∨
    (∀ known later, t.ofMarkups known (m :: later) = t.ofMarkups known later) ∨
    ∀ known later, t.ofMarkups known (m :: later) = t.ofMarkups t.sentinels.xml later := by
  cases m with
  | instruction => exact Or.inr (Or.inr fun _ _ => rfl)
  | comment => exact Or.inr (Or.inr fun _ _ => rfl)
  | directive => exact Or.inr (Or.inr fun _ _ => rfl)
  | endTag => exact Or.inr (Or.inl fun _ _ => rfl)
  | startTag text =>
      cases element : StartTag.ofText? text with
      | none => exact Or.inr (Or.inl fun known later => by simp only [ofMarkups, element])
      | some e =>
          cases speaks : t.ofElement? e with
          | none =>
              exact Or.inr (Or.inr fun known later => by simp only [ofMarkups, element, speaks])
          | some found =>
              obtain ⟨r, mem, rfl⟩ := exists_root_of_ofElement? speaks
              exact Or.inl ⟨r, mem, fun known later => by simp only [ofMarkups, element, speaks]⟩

/-- **The scan over several pieces**: it ends at a root element, or it goes on from what is
known by then. -/
theorem ofMarkups_append (t : RootTable) (known : TypeId) (ms : List Markup) :
    (∃ r ∈ t.roots, ∀ later, t.ofMarkups known (ms ++ later) = r.owner) ∨
    (t.ofMarkups known ms = known ∨ t.ofMarkups known ms = t.sentinels.xml) ∧
      ∀ later, t.ofMarkups known (ms ++ later) = t.ofMarkups (t.ofMarkups known ms) later := by
  induction ms generalizing known with
  | nil => exact Or.inr ⟨Or.inl rfl, fun _ => rfl⟩
  | cons m ms ih =>
      rcases t.ofMarkups_cons m with ⟨r, mem, ends⟩ | goesOn | goesOn
      · exact Or.inl ⟨r, mem, fun later => ends known (ms ++ later)⟩
      · simp only [List.cons_append, goesOn]
        exact ih known
      · simp only [List.cons_append, goesOn]
        refine (ih t.sentinels.xml).imp_right fun ⟨either, later⟩ => ⟨?_, later⟩
        exact Or.inr (either.elim id id)

/-- **A registered element ends the scan**: what is known before the pieces that it stands
among, and what follows them, does not matter. -/
theorem exists_ofMarkups_append {t : RootTable} {ms : List Markup} {m : Markup} {e : StartTag}
    (mem : m ∈ ms) (element : m.element? = some e) (registered : (t.ofElement? e).isSome) :
    ∃ id, ∀ known later, t.ofMarkups known (ms ++ later) = id := by
  induction ms with
  | nil => cases mem
  | cons first ms ih =>
      rcases List.mem_cons.1 mem with rfl | mem
      · obtain ⟨text, rfl, read⟩ := Markup.exists_of_element? element
        obtain ⟨found, speaks⟩ := Option.isSome_iff_exists.1 registered
        exact ⟨found, fun known later => by
          simp only [List.cons_append, ofMarkups, read, speaks]⟩
      · obtain ⟨id, settled⟩ := ih mem
        rcases t.ofMarkups_cons first with ⟨r, -, ends⟩ | goesOn | goesOn
        · exact ⟨r.owner, fun known later => ends known (ms ++ later)⟩
        · exact ⟨id, fun known later => (goesOn known (ms ++ later)).trans (settled known later)⟩
        · exact ⟨id, fun known later => (goesOn known (ms ++ later)).trans (settled _ later)⟩

/-- An answer is the owner of a root element, or what was known, or XML. -/
theorem ofMarkups_cases (t : RootTable) (known : TypeId) (ms : List Markup) :
    (∃ r ∈ t.roots, t.ofMarkups known ms = r.owner) ∨
      t.ofMarkups known ms = known ∨ t.ofMarkups known ms = t.sentinels.xml := by
  rcases t.ofMarkups_append known ms with ⟨r, mem, ends⟩ | ⟨either, -⟩
  · exact Or.inl ⟨r, mem, by simpa using ends []⟩
  · exact Or.inr either

end RootTable

end MediaSniff.Xml
