/-
# MediaSniff.Proofs.Glob.Window — lengths that need not be tried

A lookup looks for ends and beginnings of those lengths only that some rule asks for. It
could as well try every length, from the longest that any rule asks for down to one, as
far as either form of the name goes: for compiled rules, which ask for no empty end or
beginning, it collects the same candidates in the same order (`collect_windows`).

Both lists of lengths fall, and they differ only in lengths at which nothing is found;
such lists find the same (`flatMap_eq_of_falling`).
-/
import MediaSniff.Proofs.Glob.Lookup
import MediaSniff.Proofs.Glob.Width

set_option autoImplicit false

namespace MediaSniff.Glob

section Falling

variable {β : Type} {f : Nat → List β}

theorem flatMap_filter_of_nil {p : Nat → Bool} {l : List Nat}
    (nothing : ∀ n ∈ l, p n = false → f n = []) : (l.filter p).flatMap f = l.flatMap f := by
  induction l with
  | nil => rfl
  | cons n l ih =>
      have rest := ih fun m mem => nothing m (List.mem_cons_of_mem n mem)
      cases kept : p n with
      | true => rw [List.filter_cons_of_pos kept, List.flatMap_cons, List.flatMap_cons, rest]
      | false =>
          rw [List.filter_cons_of_neg (by simp [kept]), List.flatMap_cons,
            nothing n List.mem_cons_self kept, List.nil_append, rest]

/-- Falling lists that differ only where nothing is found find the same. -/
theorem flatMap_eq_of_falling {l l' : List Nat} (falling : l.Pairwise (· > ·))
    (falling' : l'.Pairwise (· > ·)) (only : ∀ n ∈ l, n ∉ l' → f n = [])
    (only' : ∀ n ∈ l', n ∉ l → f n = []) : l.flatMap f = l'.flatMap f := by
  have common : l.filter (l'.contains ·) = l'.filter (l.contains ·) := by
    have once : ∀ {k : List Nat} {p : Nat → Bool}, k.Pairwise (· > ·) →
        (k.filter p).Nodup ∧ (k.filter p).Pairwise (· > ·) := by
      intro k p fall
      have fall := fall.sublist (List.filter_sublist (p := p))
      exact ⟨fall.imp Nat.ne_of_gt, fall⟩
    refine List.Perm.eq_of_pairwise ?_ (once falling).2 (once falling').2 ?_
    · intro a b _ _ ab ba
      omega
    · rw [List.perm_ext_iff_of_nodup (once falling).1 (once falling').1]
      intro n
      simp only [List.mem_filter, List.contains_iff_mem]
      exact and_comm
  rw [← flatMap_filter_of_nil (p := (l'.contains ·)), common, flatMap_filter_of_nil]
  · intro n mem absent
    exact only' n mem (by simpa using absent)
  · intro n mem absent
    exact only n mem (by simpa using absent)

end Falling

/-- All lengths down to one that are no longer than the longest that a rule asks for, nor
than both forms of a name. -/
def windows (longest : Nat) (written lowered : Bytes) : List Nat :=
  (List.range' 1 (min longest (max written.length lowered.length))).reverse

theorem mem_windows {longest length : Nat} {written lowered : Bytes} :
    length ∈ windows longest written lowered ↔
      1 ≤ length ∧ length ≤ longest ∧
        (length ≤ written.length ∨ length ≤ lowered.length) := by
  rw [windows, List.mem_reverse, List.mem_range'_1]
  omega

theorem windows_pairwise (longest : Nat) (written lowered : Bytes) :
    (windows longest written lowered).Pairwise (· > ·) := by
  rw [windows, List.pairwise_reverse]
  exact List.pairwise_lt_range'

/-! ## What is found at a length -/

theorem mem_affixLengths {globs : List Glob} {unknown : TypeId} {length : Nat} :
    length ∈ (Index.ofList globs unknown).affixLengths ↔
      ∃ g ∈ globs, g.shape.affixLength? = some length := by
  simp only [Index.ofList, List.mem_mergeSort, mem_distinct, List.mem_filterMap]

theorem le_longestAffix {globs : List Glob} {unknown : TypeId} {length : Nat}
    (mem : length ∈ (Index.ofList globs unknown).affixLengths) :
    length ≤ (Index.ofList globs unknown).longestAffix := by
  have falling := affixLengths_pairwise globs unknown
  rw [Index.longestAffix]
  cases lengths : (Index.ofList globs unknown).affixLengths with
  | nil =>
      rw [lengths] at mem
      cases mem
  | cons longest rest =>
      rw [lengths] at mem falling
      rcases List.mem_cons.1 mem with rfl | later
      · exact Nat.le_refl _
      · exact Nat.le_of_lt (List.rel_of_pairwise_cons falling later)

theorem affixLength?_of_stop {g : Glob} {length : Nat} (here : g.stop ∈ affixStops length) :
    g.shape.affixLength? = some length := by
  obtain ⟨shape, heeded, weight, owner⟩ := g
  simp only [affixStops, List.mem_cons, List.not_mem_nil, or_false] at here
  cases shape with
  | leading text =>
      simp only [stop, Stop.affix.injEq] at here
      rcases here with ⟨same, -⟩ | ⟨same, -⟩ | ⟨same, -⟩ | ⟨same, -⟩ <;> exact congrArg some same
  | trailing text =>
      simp only [stop, Stop.affix.injEq] at here
      rcases here with ⟨same, -⟩ | ⟨same, -⟩ | ⟨same, -⟩ | ⟨same, -⟩ <;> exact congrArg some same
  | _ => simp [stop] at here

/-- At a length that no rule asks for nothing is found. -/
theorem affixesOf_of_not_asked {globs : List Glob} {unknown : TypeId} {length : Nat}
    (absent : length ∉ (Index.ofList globs unknown).affixLengths) (written lowered : Bytes) :
    (Index.ofList globs unknown).affixesOf written lowered length = [] := by
  rw [affixesOf_ofList, List.map_eq_nil_iff, List.flatMap_eq_nil_iff]
  intro s mem
  rw [foundAt, List.filter_eq_nil_iff]
  intro g accepted here
  apply absent
  rw [mem_affixLengths]
  refine ⟨g, List.mem_mergeSort.1 (List.mem_filter.1 accepted).1, ?_⟩
  apply affixLength?_of_stop
  rw [of_decide_eq_true here]
  exact mem

/-- At a length that neither form of a name has nothing is found. -/
theorem affixesOf_of_long {ix : Index} {written lowered : Bytes} {length : Nat}
    (longWritten : written.length < length) (longLowered : lowered.length < length) :
    ix.affixesOf written lowered length = [] := by
  rw [Index.affixesOf, Tables.affixes, Tables.affixes, if_neg (Nat.not_le.2 longWritten),
    if_neg (Nat.not_le.2 longLowered), List.append_nil]

/-- Trying every length finds the same ends and beginnings. -/
theorem affixes_windows {globs : List Glob} (asks : ∀ g ∈ globs, 0 < g.fixedLength)
    (unknown : TypeId) (written lowered : Bytes) :
    (windows (Index.ofList globs unknown).longestAffix written lowered).flatMap
        ((Index.ofList globs unknown).affixesOf written lowered) =
      (Index.ofList globs unknown).affixLengths.flatMap
        ((Index.ofList globs unknown).affixesOf written lowered) := by
  apply flatMap_eq_of_falling (windows_pairwise _ _ _) (affixLengths_pairwise globs unknown)
  · intro length _ absent
    exact affixesOf_of_not_asked absent written lowered
  · intro length asked outside
    have least : 1 ≤ length := by
      obtain ⟨g, mem, long⟩ := mem_affixLengths.1 asked
      have least := asks g mem
      rw [fixedLength] at least
      cases shape : g.shape <;> rw [shape] at long least <;> cases long <;> exact least
    have most := le_longestAffix asked
    rw [mem_windows] at outside
    apply affixesOf_of_long <;> omega

/-- **A lookup may try every length.** An index of compiled rules collects what it would
collect from all lengths that either form of the name has. -/
theorem collect_windows {globs : List Glob} (compiled : ∀ g ∈ globs,
      ∃ pattern caseSensitive weight owner,
        compile pattern caseSensitive weight owner = .ok g)
    (unknown : TypeId) (written lowered : Bytes) :
    (Index.ofList globs unknown).collect written lowered =
      let ix := Index.ofList globs unknown
      ix.sensitive.exact.find written ++ ix.insensitive.exact.find lowered ++
        (windows ix.longestAffix written lowered).flatMap (ix.affixesOf written lowered) ++
        (ix.patterns.filter fun g => g.accepts (if g.caseSensitive then written else lowered)).map
          candidate := by
  have asks : ∀ g ∈ globs, 0 < g.fixedLength := by
    intro g mem
    obtain ⟨pattern, caseSensitive, weight, owner, done⟩ := compiled g mem
    exact compile_fixedLength_pos done
  dsimp only
  rw [affixes_windows asks, Index.collect]

end MediaSniff.Glob
