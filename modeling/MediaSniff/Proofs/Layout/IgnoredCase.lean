/-
# MediaSniff.Proofs.Layout.IgnoredCase — tests that ignore case

A test of a directory rule that ignores case asks for no more than the same test that respects
it. What it looks for is looked for under lowercased paths, and there an entry that stands at a
path stands at the lowercased path (`entryAt_lowercase`), unless another entry falls together
with it; so this is said of directories whose paths differ by more than case (`SpelledOnce`).

What lies below a path lies below it there too (`LiesBelow.lowercase`). This is not plain, as a
sigma at the end of the holder's name has something behind it in the longer path and nothing in
its own. But what stands behind it is a slash, and no letter beyond a slash makes a difference.

So a directory that a rule accepts is accepted by every rule that comes from it by ignoring case
at some of the tests (`accepts_of_lenient`).
-/
import MediaSniff.Proofs.Layout.Listing
import MediaSniff.Proofs.Text.FinalSigma
import Mathlib.Data.List.Find

set_option autoImplicit false

namespace MediaSniff

namespace Descriptor

/-- A test like another, but that it may ignore case where the other respects it, at itself and
at all tests below. -/
inductive LayoutTest.Lenient : LayoutTest → LayoutTest → Prop
  | intro {path : String} {kind mimetype : Option String}
      {strict lenient executable nonEmpty : Bool} {tests tests' : List LayoutTest}
      (looser : lenient = true → strict = true)
      (below : List.Forall₂ LayoutTest.Lenient tests tests') :
      LayoutTest.Lenient ⟨path, kind, strict, executable, nonEmpty, mimetype, tests⟩
        ⟨path, kind, lenient, executable, nonEmpty, mimetype, tests'⟩

/-- A rule like another, but that some of its tests may ignore case where those of the other
respect it. -/
structure LayoutRule.Lenient (rule rule' : LayoutRule) : Prop where
  priority : rule'.priority = rule.priority
  tests : List.Forall₂ LayoutTest.Lenient rule.tests rule'.tests

/-! ## All tests of a rule -/

section Lists

variable {α β : Type} {R : α → β → Prop} {as : List α} {bs : List β}

theorem exists_mem_right (each : List.Forall₂ R as bs) {a : α} (mem : a ∈ as) :
    ∃ b ∈ bs, R a b := by
  induction each with
  | nil => cases mem
  | cons first _ ih =>
      rcases List.mem_cons.1 mem with rfl | later
      · exact ⟨_, List.mem_cons_self, first⟩
      · obtain ⟨b, mem, related⟩ := ih later
        exact ⟨b, List.mem_cons_of_mem _ mem, related⟩

theorem exists_mem_left (each : List.Forall₂ R as bs) {b : β} (mem : b ∈ bs) :
    ∃ a ∈ as, R a b :=
  exists_mem_right (List.Forall₂.flip each) mem

end Lists

mutual

theorem LayoutTest.Lenient.allBelow : ∀ (test test' : LayoutTest), test.Lenient test' →
    List.Forall₂ LayoutTest.Lenient test.allBelow test'.allBelow
  | ⟨_, _, _, _, _, _, children⟩, _, lenient => by
      cases lenient with
      | intro looser below =>
          exact List.rel_append below (LayoutTest.Lenient.allBelowEach children _ below)

theorem LayoutTest.Lenient.allBelowEach : ∀ (tests tests' : List LayoutTest),
    List.Forall₂ LayoutTest.Lenient tests tests' →
      List.Forall₂ LayoutTest.Lenient (LayoutTest.allBelowEach tests)
        (LayoutTest.allBelowEach tests')
  | [], _, each => by
      cases each
      exact .nil
  | test :: tests, _, each => by
      cases each with
      | cons first rest =>
          exact List.rel_append (LayoutTest.Lenient.allBelow test _ first)
            (LayoutTest.Lenient.allBelowEach tests _ rest)

end

theorem LayoutRule.Lenient.allTests {rule rule' : LayoutRule} (lenient : rule.Lenient rule') :
    List.Forall₂ LayoutTest.Lenient rule.allTests rule'.allTests :=
  List.rel_append lenient.tests (LayoutTest.Lenient.allBelowEach _ _ lenient.tests)

end Descriptor

namespace Layout

open Descriptor (LayoutTest LayoutRule)

variable {type : String} {resolve : String → Option TypeId} {globs : Glob.Index}
  {entries : List (String × Entry)}

/-! ## Compiling -/

/-- Whether a rule compiles has nothing to do with case. -/
theorem Signature.exists_compile_of_lenient {owner : TypeId} {rule rule' : LayoutRule}
    {s : Signature} (lenient : rule.Lenient rule')
    (compiled : Signature.compile type owner rule resolve = .ok s) :
    ∃ s', Signature.compile type owner rule' resolve = .ok s' := by
  obtain ⟨⟨allowed, written⟩, known⟩ := Signature.exists_compile_iff.1 ⟨s, compiled⟩
  refine Signature.exists_compile_iff.2 ⟨⟨?_, fun test' mem' => ?_⟩, fun name mentioned => ?_⟩
  · rw [lenient.priority]
    exact allowed
  · obtain ⟨test, mem, looser⟩ := Descriptor.exists_mem_left lenient.allTests mem'
    have same := written test mem
    cases looser with
    | intro _ _ => exact same
  · obtain ⟨test', mem', asked⟩ := List.mem_filterMap.1 mentioned
    obtain ⟨test, mem, looser⟩ := Descriptor.exists_mem_left lenient.allTests mem'
    refine known name (List.mem_filterMap.2 ⟨test, mem, ?_⟩)
    cases looser with
    | intro _ _ => exact asked

/-! ## Paths -/

/-- Each path is spelled in one way: paths that differ, differ by more than case. -/
def SpelledOnce (entries : List (String × Entry)) : Prop :=
  ∀ e ∈ entries, ∀ e' ∈ entries, Text.lowercase e.1 = Text.lowercase e'.1 → e.1 = e'.1

/-- **Lowercasing keeps what lies below what.** -/
theorem LiesBelow.lowercase {path holder : String} (below : LiesBelow path holder) :
    LiesBelow (Text.lowercase path) (Text.lowercase holder) := by
  obtain ⟨rest, whole⟩ := below
  have slash : Text.isCaseIgnorable '/' ≠ true ∧ Text.isCased '/' = false ∧
      Text.lowerChar '/' = ['/'] := by
    decide +kernel
  refine ⟨Text.lowerAfter [] rest, ?_⟩
  rw [Text.lowercase, Text.lowercase, String.toList_ofList, String.toList_ofList, whole,
    Text.lowerAfter_append_cons slash.1 slash.2.1, slash.2.2, List.singleton_append]

/-- **What stands at a path stands at the lowercased path.** -/
theorem entryAt_lowercase (once : SpelledOnce entries) {path : String} {e : Entry}
    (found : entryAt entries true path = some e) :
    entryAt entries false (Text.lowercase path) = some e := by
  obtain ⟨q, mem, rfl⟩ := exists_mem_of_entryAt found
  -- The two searches look for the same among these entries.
  have alike : ∀ e' ∈ entries.reverse,
      (filedUnder false e'.1 == Text.lowercase q) = (filedUnder true e'.1 == q) := by
    intro e' mem'
    rw [Bool.eq_iff_iff, beq_iff_eq, beq_iff_eq]
    exact ⟨once e' (List.mem_reverse.1 mem') (q, e) mem, congrArg Text.lowercase⟩
  rw [← found, entryAt, entryAt]
  exact congrArg _ (List.find?_congr alike)

theorem Populated.lowercase {path : String} {e : Entry}
    (filled : Populated entries true path e) :
    Populated entries false (Text.lowercase path) e := by
  by_cases directory : e.kind = .directory
  · rw [Populated, if_pos directory] at filled ⊢
    obtain ⟨e', mem, below⟩ := filled
    exact ⟨e', mem, below.lowercase⟩
  · rw [populated_iff_size directory] at filled ⊢
    exact filled

/-! ## Tests -/

/-- **A test that ignores case asks for no more.** -/
theorem Meets.of_lenient (once : SpelledOnce entries) {test test' : LayoutTest}
    (lenient : test.Lenient test') (met : Meets resolve globs entries test) :
    Meets resolve globs entries test' := by
  cases lenient with
  | @intro _ _ _ strict lenient _ _ _ _ looser _ =>
      obtain ⟨path, e, trimmed, found, kind, executable, mimetype, filled⟩ := met
      cases lenient with
      | true =>
          obtain rfl := looser rfl
          exact ⟨path, e, trimmed, found, kind, executable, mimetype, filled⟩
      | false =>
          cases strict with
          | false => exact ⟨path, e, trimmed, found, kind, executable, mimetype, filled⟩
          | true =>
              exact ⟨path, e, trimmed, entryAt_lowercase once found, kind, executable, mimetype,
                fun asked => (filled asked).lowercase⟩

theorem Holds.of_lenient (once : SpelledOnce entries) {test test' : LayoutTest}
    (lenient : test.Lenient test') (held : Holds resolve globs entries test) :
    Holds resolve globs entries test' := by
  induction held generalizing test' with
  | intro here below ih =>
      have met := here.of_lenient once lenient
      cases lenient with
      | intro looser each =>
          refine .intro met fun child' mem' => ?_
          obtain ⟨child, mem, lenient⟩ := Descriptor.exists_mem_left each mem'
          exact ih child mem lenient

/-! ## Rules -/

theorem Signature.accepts_iff_exists_holds {owner : TypeId} {rule : LayoutRule} {s : Signature}
    (compiled : Signature.compile type owner rule resolve = .ok s) :
    s.accepts globs (.ofList entries) = true ↔
      ∃ test ∈ rule.tests, Holds resolve globs entries test := by
  obtain ⟨-, trees, done, rfl⟩ := Signature.compile_eq_ok.1 compiled
  rw [Signature.accepts, Arena.someTree_ofForest]
  exact exists_iff_of_answers
    (compileBelow_answers ⟨"", none, false, false, false, none, rule.tests⟩ trees done)

/-- **Ignoring case is never stricter.** Let a rule come from one that compiles by ignoring case
at some of its tests. Then it compiles too, and it accepts every directory that the other
accepts, as long as no two paths of the directory differ in case only. -/
theorem Signature.accepts_of_lenient {owner : TypeId} {rule rule' : LayoutRule} {s : Signature}
    (lenient : rule.Lenient rule')
    (compiled : Signature.compile type owner rule resolve = .ok s) (globs : Glob.Index)
    (entries : List (String × Entry)) (once : SpelledOnce entries) :
    ∃ s', Signature.compile type owner rule' resolve = .ok s' ∧
      (s.accepts globs (.ofList entries) = true → s'.accepts globs (.ofList entries) = true) := by
  obtain ⟨s', compiled'⟩ := Signature.exists_compile_of_lenient lenient compiled
  refine ⟨s', compiled', fun accepts => (Signature.accepts_iff_exists_holds compiled').2 ?_⟩
  obtain ⟨test, mem, held⟩ := (Signature.accepts_iff_exists_holds compiled).1 accepts
  obtain ⟨test', mem', looser⟩ := Descriptor.exists_mem_right lenient.tests mem
  exact ⟨test', mem', held.of_lenient once looser⟩

/-- A disc with road maps: a folder that is not empty, and a map in it. Whether the folder is
looked for with respect to case is left open. -/
def roadRule (matchCase : Bool) : LayoutRule :=
  { tests := [{ path := "ΟΔΟΣ/", kind := some "directory", matchCase, nonEmpty := true
                children := [{ path := "ΟΔΟΣ/Α.map", kind := some "file", matchCase := true }] }] }

def roadDisc : List (String × Entry) :=
  [("ΟΔΟΣ", { name := "ΟΔΟΣ", kind := .directory }), ("ΟΔΟΣ/Α.map", { name := "Α.map", size := 7 })]

theorem roadDisc_holds :
    ∃ test ∈ (roadRule true).tests, Holds (fun _ => none) (.ofList [] ⟨0⟩) roadDisc test := by
  refine ⟨_, List.mem_singleton.2 rfl, .intro ?_ ?_⟩
  · refine ⟨"ΟΔΟΣ", { name := "ΟΔΟΣ", kind := .directory }, trimmed_iff.2 (by decide +kernel),
      by decide +kernel, .directory, nofun, nofun, fun _ => ?_⟩
    exact ⟨_, List.mem_cons_of_mem _ List.mem_cons_self, "Α.map".toList, by decide +kernel⟩
  · intro child mem
    obtain rfl := List.mem_singleton.1 mem
    exact .intro ⟨"ΟΔΟΣ/Α.map", { name := "Α.map", size := 7 }, trimmed_iff.2 (by decide +kernel),
      by decide +kernel, .file, nofun, nofun, nofun⟩ nofun

/-- The sigma of the folder stands at the end of a name and in front of a slash. -/
theorem roadDisc_accepted :
    ((roadRule true).Lenient (roadRule false) ∧ SpelledOnce roadDisc) ∧
    ∃ s, Signature.compile "x-content/maps" ⟨3⟩ (roadRule true) (fun _ => none) = .ok s ∧
      ∃ s', Signature.compile "x-content/maps" ⟨3⟩ (roadRule false) (fun _ => none) = .ok s' ∧
        s'.accepts (.ofList [] ⟨0⟩) (.ofList roadDisc) = true := by
  have lenient : (roadRule true).Lenient (roadRule false) :=
    ⟨rfl, .cons (.intro nofun (.cons (.intro id .nil) .nil)) .nil⟩
  have once : SpelledOnce roadDisc := by
    unfold SpelledOnce
    decide +kernel
  have compiles : ∃ s, Signature.compile "x-content/maps" ⟨3⟩ (roadRule true) (fun _ => none) =
      .ok s := by
    decide +kernel
  obtain ⟨s, compiled⟩ := compiles
  obtain ⟨s', compiled', accepts⟩ :=
    Signature.accepts_of_lenient lenient compiled (.ofList [] ⟨0⟩) roadDisc once
  exact ⟨⟨lenient, once⟩, s, compiled, s', compiled',
    accepts ((Signature.accepts_iff_exists_holds compiled).2 roadDisc_holds)⟩

end Layout

end MediaSniff
