/-
# MediaSniff.Proofs.Glob.Lookup — looking a name up is trying every rule

The index does not try every rule. It finds literal rules in tables, by texts cut out of
the name, and sorts twice: all rules into bucket order when it is built, what it has found
by weight when it is asked. The result is the plain scan all the same
(`candidates_ofList`).

The walk of a lookup makes `stops`. At each it finds, in bucket order, exactly the
accepting rules that belong there (`collect_ofList`). Every rule belongs to one stop, and
no stop is made twice, so the walk finds each accepting rule once (`found_perm`). Stops
are made in the order of their ranks, and a rank is what a standing has between weight and
type, so rules of one weight are found in the order of their standings
(`found_pairwise`). The second sort is stable and keeps that order.
-/
import MediaSniff.Proofs.Glob.Scan
import MediaSniff.Proofs.Grouping
import MediaSniff.Proofs.StableSort

set_option autoImplicit false

namespace MediaSniff.Glob

open OrderDual (toDual)

/-! ## Tables -/

/-- A table files under a text the candidates of the rules that ask for it, in the order of
the rules. -/
theorem Table.find_ofList (text? : Shape → Option Bytes) (globs : List Glob) (text : Bytes) :
    (Table.ofList text? globs).find text =
      (globs.filter fun g => text? g.shape = some text).map candidate := by
  induction globs with
  | nil => simp [Table.ofList, Table.find]
  | cons g globs ih =>
      rw [Table.ofList, List.foldr_cons, ← Table.ofList]
      cases asked : text? g.shape with
      | none => simp [asked, ih]
      | some own =>
          by_cases same : own = text
          · subst same
            simp [asked, Table.find, ← ih]
          · have other : (own == text) = false := by simpa using same
            rw [List.filter_cons_of_neg (by simpa [asked] using same), ← ih]
            simp [Table.find, Std.HashMap.getD_insert, other]

/-! ## The stops of the walk -/

/-- Where the walk of a lookup looks for rules. -/
inductive Stop where
  /-- Among the rules for the whole name. -/
  | exact (caseSensitive : Bool)
  /-- Among the rules for an end, or a beginning, of one length. -/
  | affix (length : Nat) (trailing caseSensitive : Bool)
  /-- Among the bracket patterns. -/
  | pattern
  deriving DecidableEq

/-- The stop at which a rule is found. -/
def stop (g : Glob) : Stop :=
  match g.shape with
  | .exact _ => .exact g.caseSensitive
  | .leading text => .affix text.length false g.caseSensitive
  | .trailing text => .affix text.length true g.caseSensitive
  | .pattern _ => .pattern

/-- The stops for one length. -/
def affixStops (length : Nat) : List Stop :=
  [.affix length true true, .affix length false true,
    .affix length true false, .affix length false false]

/-- All stops of a walk, in its order. -/
def stops (affixLengths : List Nat) : List Stop :=
  [.exact true, .exact false] ++ affixLengths.flatMap affixStops ++ [.pattern]

/-- Whether the rule accepts a name of which both forms are given. -/
def acceptsEither (written lowered : Bytes) (g : Glob) : Bool :=
  g.accepts (if g.caseSensitive then written else lowered)

theorem filter_acceptsEither (globs : List Glob) (name : String) :
    globs.filter (acceptsEither (Text.utf8 name) (Text.utf8 (Text.lowercase name))) =
      globs.filter (·.acceptsName name) := by
  apply List.filter_congr
  intro g _
  rw [acceptsEither, acceptsName]
  cases g.caseSensitive <;> rfl

/-- The rules that a walk finds at a stop. -/
def foundAt (ordered : List Glob) (written lowered : Bytes) (s : Stop) : List Glob :=
  (ordered.filter (acceptsEither written lowered)).filter fun g => g.stop = s

/-- What a walk finds, stop by stop. -/
def found (ordered : List Glob) (affixLengths : List Nat) (written lowered : Bytes) :
    List Glob :=
  (stops affixLengths).flatMap (foundAt ordered written lowered)

/-- Rules filed by a text of theirs, of which only those that treat case in one way are
asked: these are the rules of a stop, if having the text asked for is to accept the name
there. -/
theorem find_eq_foundAt {text? : Shape → Option Bytes} {ordered : List Glob}
    {written lowered text : Bytes} {s : Stop} {heeded : Bool}
    (right : ∀ g : Glob, (text? g.shape = some text ∧ g.caseSensitive = heeded) ↔
      (g.acceptsEither written lowered = true ∧ g.stop = s)) :
    (Table.ofList text? (ordered.filter fun g => g.caseSensitive = heeded)).find text =
      (foundAt ordered written lowered s).map candidate := by
  rw [Table.find_ofList, foundAt, List.filter_filter, List.filter_filter]
  congr 1
  apply List.filter_congr
  intro g _
  rw [Bool.eq_iff_iff, Bool.and_eq_true, Bool.and_eq_true, decide_eq_true_eq, decide_eq_true_eq,
    decide_eq_true_eq, right, and_comm]

/-- The form of the name that rules look at which treat case in one way. -/
def form (written lowered : Bytes) (heeded : Bool) : Bytes := if heeded then written else lowered

theorem find_exact (ordered : List Glob) (written lowered : Bytes) (heeded : Bool) :
    (Tables.ofList (ordered.filter fun g => g.caseSensitive = heeded)).exact.find
        (form written lowered heeded) =
      (foundAt ordered written lowered (.exact heeded)).map candidate := by
  apply find_eq_foundAt
  rintro ⟨shape, caseSensitive, weight, owner⟩
  cases shape with
  | exact text =>
      simp only [Shape.exactText?, acceptsEither, accepts, Shape.accepts, stop, form,
        Option.some.injEq, beq_iff_eq, Stop.exact.injEq]
      constructor
      · rintro ⟨rfl, rfl⟩
        exact ⟨rfl, rfl⟩
      · rintro ⟨same, rfl⟩
        exact ⟨same.symm, rfl⟩
  | _ => simp [Shape.exactText?, stop]

theorem eq_drop_iff {text subject : Bytes} {length : Nat} (fits : length ≤ subject.length) :
    text = subject.drop (subject.length - length) ↔
      text.isSuffixOf subject = true ∧ text.length = length := by
  rw [List.isSuffixOf_iff_suffix]
  constructor
  · rintro rfl
    refine ⟨List.drop_suffix _ _, ?_⟩
    rw [List.length_drop]
    omega
  · rintro ⟨ending, rfl⟩
    exact List.suffix_iff_eq_drop.1 ending

theorem eq_take_iff {text subject : Bytes} {length : Nat} (fits : length ≤ subject.length) :
    text = subject.take length ↔ text.isPrefixOf subject = true ∧ text.length = length := by
  rw [List.isPrefixOf_iff_prefix]
  constructor
  · rintro rfl
    refine ⟨List.take_prefix _ _, ?_⟩
    rw [List.length_take]
    omega
  · rintro ⟨beginning, rfl⟩
    exact List.prefix_iff_eq_take.1 beginning

theorem find_trailing (ordered : List Glob) (written lowered : Bytes) (heeded : Bool)
    {length : Nat} (fits : length ≤ (form written lowered heeded).length) :
    (Tables.ofList (ordered.filter fun g => g.caseSensitive = heeded)).trailing.find
        ((form written lowered heeded).drop ((form written lowered heeded).length - length)) =
      (foundAt ordered written lowered (.affix length true heeded)).map candidate := by
  apply find_eq_foundAt
  rintro ⟨shape, caseSensitive, weight, owner⟩
  cases shape with
  | trailing text =>
      simp only [Shape.trailingText?, acceptsEither, accepts, Shape.accepts, stop,
        Option.some.injEq, Stop.affix.injEq, true_and, eq_drop_iff fits]
      constructor
      · rintro ⟨⟨ending, long⟩, rfl⟩
        exact ⟨ending, long, rfl⟩
      · rintro ⟨ending, long, rfl⟩
        exact ⟨⟨ending, long⟩, rfl⟩
  | _ => simp [Shape.trailingText?, stop]

theorem find_leading (ordered : List Glob) (written lowered : Bytes) (heeded : Bool)
    {length : Nat} (fits : length ≤ (form written lowered heeded).length) :
    (Tables.ofList (ordered.filter fun g => g.caseSensitive = heeded)).leading.find
        ((form written lowered heeded).take length) =
      (foundAt ordered written lowered (.affix length false heeded)).map candidate := by
  apply find_eq_foundAt
  rintro ⟨shape, caseSensitive, weight, owner⟩
  cases shape with
  | leading text =>
      simp only [Shape.leadingText?, acceptsEither, accepts, Shape.accepts, stop,
        Option.some.injEq, Stop.affix.injEq, true_and, eq_take_iff fits]
      constructor
      · rintro ⟨⟨beginning, long⟩, rfl⟩
        exact ⟨beginning, long, rfl⟩
      · rintro ⟨beginning, long, rfl⟩
        exact ⟨⟨beginning, long⟩, rfl⟩
  | _ => simp [Shape.leadingText?, stop]

/-- No rule for an end or a beginning accepts a name shorter than that. -/
theorem foundAt_affix_eq_nil {ordered : List Glob} {written lowered : Bytes} {length : Nat}
    {trailing heeded : Bool} (short : (form written lowered heeded).length < length) :
    foundAt ordered written lowered (.affix length trailing heeded) = [] := by
  rw [foundAt, List.filter_eq_nil_iff]
  rintro ⟨shape, caseSensitive, weight, owner⟩ mem here
  have accepted := (List.mem_filter.1 mem).2
  cases shape with
  | leading text =>
      simp only [stop, decide_eq_true_eq, Stop.affix.injEq] at here
      obtain ⟨rfl, -, rfl⟩ := here
      simp only [acceptsEither, accepts, Shape.accepts, List.isPrefixOf_iff_prefix] at accepted
      exact absurd accepted.length_le (Nat.not_le.2 short)
  | trailing text =>
      simp only [stop, decide_eq_true_eq, Stop.affix.injEq] at here
      obtain ⟨rfl, -, rfl⟩ := here
      simp only [acceptsEither, accepts, Shape.accepts, List.isSuffixOf_iff_suffix] at accepted
      exact absurd accepted.length_le (Nat.not_le.2 short)
  | _ => simp [stop] at here

theorem affixes_eq (ordered : List Glob) (written lowered : Bytes) (heeded : Bool)
    (length : Nat) :
    (Tables.ofList (ordered.filter fun g => g.caseSensitive = heeded)).affixes
        (form written lowered heeded) length =
      (foundAt ordered written lowered (.affix length true heeded) ++
        foundAt ordered written lowered (.affix length false heeded)).map candidate := by
  rw [Tables.affixes]
  split
  · rename_i fits
    rw [find_trailing ordered written lowered heeded fits,
      find_leading ordered written lowered heeded fits, List.map_append]
  · rename_i short
    rw [foundAt_affix_eq_nil (Nat.not_le.1 short), foundAt_affix_eq_nil (Nat.not_le.1 short)]
    rfl

theorem patterns_eq (ordered : List Glob) (written lowered : Bytes) :
    ((ordered.filter (·.shape.isPattern)).filter fun g =>
        g.accepts (if g.caseSensitive then written else lowered)) =
      foundAt ordered written lowered .pattern := by
  rw [foundAt, List.filter_filter, List.filter_filter]
  apply List.filter_congr
  rintro ⟨shape, caseSensitive, weight, owner⟩ _
  rw [Bool.and_comm]
  cases shape <;> rfl

theorem affixesOf_ofList (globs : List Glob) (unknown : TypeId) (written lowered : Bytes)
    (length : Nat) :
    (Index.ofList globs unknown).affixesOf written lowered length =
      ((affixStops length).flatMap
        (foundAt (globs.mergeSort bucketOrder) written lowered)).map candidate := by
  have heeded := affixes_eq (globs.mergeSort bucketOrder) written lowered true length
  have ignored := affixes_eq (globs.mergeSort bucketOrder) written lowered false length
  simp only [form, if_true, Bool.false_eq_true, if_false, Bool.decide_eq_true,
    Bool.decide_eq_false] at heeded ignored
  simp only [Index.affixesOf, Index.ofList, heeded, ignored, affixStops, List.flatMap_cons,
    List.flatMap_nil, List.append_nil, List.map_append, List.append_assoc]

/-- **The walk.** An index collects the candidates of the rules found at the stops. -/
theorem collect_ofList (globs : List Glob) (unknown : TypeId) (written lowered : Bytes) :
    (Index.ofList globs unknown).collect written lowered =
      (found (globs.mergeSort bucketOrder) (Index.ofList globs unknown).affixLengths
        written lowered).map candidate := by
  have heeded := find_exact (globs.mergeSort bucketOrder) written lowered true
  have ignored := find_exact (globs.mergeSort bucketOrder) written lowered false
  simp only [form, if_true, Bool.false_eq_true, if_false, Bool.decide_eq_true,
    Bool.decide_eq_false] at heeded ignored
  have affixes : (Index.ofList globs unknown).affixesOf written lowered = fun length =>
      ((affixStops length).flatMap
        (foundAt (globs.mergeSort bucketOrder) written lowered)).map candidate :=
    funext (affixesOf_ofList globs unknown written lowered)
  rw [Index.collect, affixes]
  simp only [Index.ofList, heeded, ignored, patterns_eq, found, stops, List.flatMap_append,
    List.flatMap_cons, List.flatMap_nil, List.append_nil, List.map_append, List.map_flatMap,
    List.flatMap_assoc, List.append_assoc]

/-! ## Each accepting rule once, in the order of standings -/

/-- Where a stop comes in a walk. -/
def Stop.rank : Stop → ℕ ×ₗ ℕᵒᵈ ×ₗ ℕ
  | .exact heeded => toLex (0, toLex (toDual 0, if heeded then 0 else 1))
  | .affix length true heeded => toLex (1, toLex (toDual length, if heeded then 0 else 2))
  | .affix length false heeded => toLex (1, toLex (toDual length, if heeded then 1 else 3))
  | .pattern => toLex (2, toLex (toDual 0, 0))

theorem affixStops_pairwise (length : Nat) :
    (affixStops length).Pairwise fun s t => s.rank < t.rank := by
  simp [affixStops, Stop.rank, Prod.Lex.toLex_lt_toLex]

theorem stops_pairwise {affixLengths : List Nat} (falling : affixLengths.Pairwise (· > ·)) :
    (stops affixLengths).Pairwise fun s t => s.rank < t.rank := by
  have affixes : (affixLengths.flatMap affixStops).Pairwise fun s t => s.rank < t.rank := by
    rw [List.pairwise_flatMap]
    refine ⟨fun length _ => affixStops_pairwise length, falling.imp fun longer => ?_⟩
    simp [affixStops, Stop.rank, Prod.Lex.toLex_lt_toLex, longer]
  have between : ∀ s ∈ affixLengths.flatMap affixStops, ∀ heeded,
      (Stop.exact heeded).rank < s.rank ∧ s.rank < Stop.pattern.rank := by
    intro s mem heeded
    obtain ⟨length, -, here⟩ := List.mem_flatMap.1 mem
    simp only [affixStops, List.mem_cons, List.not_mem_nil, or_false] at here
    rcases here with rfl | rfl | rfl | rfl <;>
      simp [Stop.rank, Prod.Lex.toLex_lt_toLex]
  have ends : ∀ heeded, (Stop.exact heeded).rank < Stop.pattern.rank := by
    intro heeded
    simp [Stop.rank, Prod.Lex.toLex_lt_toLex]
  rw [stops, List.pairwise_append, List.pairwise_append]
  refine ⟨⟨?_, affixes, ?_⟩, List.pairwise_singleton _ _, ?_⟩
  · simp [Stop.rank, Prod.Lex.toLex_lt_toLex]
  · intro s whole t mem
    simp only [List.mem_cons, List.not_mem_nil, or_false] at whole
    rcases whole with rfl | rfl
    · exact (between t mem true).1
    · exact (between t mem false).1
  · intro s mem t last
    rw [List.mem_singleton.1 last]
    rcases List.mem_append.1 mem with whole | affix
    · simp only [List.mem_cons, List.not_mem_nil, or_false] at whole
      rcases whole with rfl | rfl
      · exact ends true
      · exact ends false
    · exact (between s affix true).2

theorem nodup_stops {affixLengths : List Nat} (falling : affixLengths.Pairwise (· > ·)) :
    (stops affixLengths).Nodup := by
  refine (stops_pairwise falling).imp ?_
  intro s t before same
  rw [same] at before
  exact lt_irrefl _ before

/-- The lengths at which an index looks a name up fall. -/
theorem affixLengths_pairwise (globs : List Glob) (unknown : TypeId) :
    (Index.ofList globs unknown).affixLengths.Pairwise (· > ·) := by
  have once := nodup_distinct (globs.filterMap (·.shape.affixLength?))
  have sorted : (Index.ofList globs unknown).affixLengths.Pairwise fun a b =>
      decide (b ≤ a) = true := by
    apply List.pairwise_mergeSort
    · intro a b c ab bc
      simp only [decide_eq_true_eq] at ab bc ⊢
      omega
    · intro a b
      simp only [Bool.or_eq_true, decide_eq_true_eq]
      omega
  refine (sorted.and ((List.mergeSort_perm _ _).nodup_iff.2 once)).imp ?_
  rintro a b ⟨notLonger, different⟩
  simp only [decide_eq_true_eq] at notLonger
  omega

/-- A walk stops wherever there is a rule to find. -/
theorem stop_mem_stops {globs : List Glob} {unknown : TypeId} {g : Glob} (mem : g ∈ globs) :
    g.stop ∈ stops (Index.ofList globs unknown).affixLengths := by
  have affix : ∀ length trailing heeded, g.shape.affixLength? = some length →
      Stop.affix length trailing heeded ∈ stops (Index.ofList globs unknown).affixLengths := by
    intro length trailing heeded asked
    have listed : length ∈ (Index.ofList globs unknown).affixLengths := by
      simp only [Index.ofList, List.mem_mergeSort, mem_distinct, List.mem_filterMap]
      exact ⟨g, mem, asked⟩
    have here : Stop.affix length trailing heeded ∈ affixStops length := by
      cases trailing <;> cases heeded <;> simp [affixStops]
    rw [stops, List.mem_append, List.mem_append]
    exact Or.inl (Or.inr (List.mem_flatMap.2 ⟨length, listed, here⟩))
  unfold stop
  split
  · rename_i text shape
    cases g.caseSensitive <;> simp [stops]
  · rename_i text shape
    exact affix _ _ _ (by simp [shape, Shape.affixLength?])
  · rename_i text shape
    exact affix _ _ _ (by simp [shape, Shape.affixLength?])
  · simp [stops]

theorem found_perm (globs : List Glob) (unknown : TypeId) (written lowered : Bytes) :
    (found (globs.mergeSort bucketOrder) (Index.ofList globs unknown).affixLengths
      written lowered).Perm (globs.filter (acceptsEither written lowered)) := by
  have apart : (found (globs.mergeSort bucketOrder) (Index.ofList globs unknown).affixLengths
      written lowered).Perm ((globs.mergeSort bucketOrder).filter (acceptsEither written lowered)) := by
    refine flatMap_filter_perm stop (nodup_stops (affixLengths_pairwise globs unknown)) ?_
    intro g mem
    exact stop_mem_stops (List.mem_mergeSort.1 (List.mem_filter.1 mem).1)
  exact apart.trans ((List.mergeSort_perm globs bucketOrder).filter _)

/-- An index collects one candidate for each accepting rule. -/
theorem collect_perm (globs : List Glob) (unknown : TypeId) (name : String) :
    ((Index.ofList globs unknown).collect (Text.utf8 name)
      (Text.utf8 (Text.lowercase name))).Perm
        ((globs.filter (·.acceptsName name)).map candidate) := by
  rw [collect_ofList, ← filter_acceptsEither]
  exact (found_perm globs unknown _ _).map candidate

/-- Every name has a candidate. -/
theorem Index.candidates_ne_nil (ix : Index) (name : String) : ix.candidates name ≠ [] := by
  rw [Index.candidates]
  split
  · exact List.cons_ne_nil _ _
  · rename_i collected
    intro nothing
    exact collected (List.Perm.eq_nil (nothing ▸ (List.mergeSort_perm _ _).symm))

/-- The best type for a name is that of one of its candidates. -/
theorem Index.exists_best (ix : Index) (name : String) :
    ∃ c ∈ ix.candidates name, c.type = ix.best name := by
  rw [Index.best]
  cases named : ix.candidates name with
  | nil => exact absurd named (ix.candidates_ne_nil name)
  | cons c rest => exact ⟨c, List.mem_cons_self, rfl⟩

/-- A name that no rule accepts speaks for the unknown type alone. -/
theorem candidates_of_accepted_nil {globs : List Glob} {name : String} (unknown : TypeId)
    (nowhere : globs.filter (·.acceptsName name) = []) :
    (Index.ofList globs unknown).candidates name = [⟨0, unknown⟩] := by
  have nothing := collect_perm globs unknown name
  rw [nowhere, List.map_nil] at nothing
  rw [Index.candidates, nothing.eq_nil]
  rfl

/-- A name that some rule accepts speaks for the types of all rules that do. -/
theorem candidates_perm {globs : List Glob} {name : String} (unknown : TypeId)
    (somewhere : globs.filter (·.acceptsName name) ≠ []) :
    ((Index.ofList globs unknown).candidates name).Perm
      ((globs.filter (·.acceptsName name)).map candidate) := by
  have all := collect_perm globs unknown name
  rw [Index.candidates]
  split
  · rename_i nothing
    rw [nothing] at all
    exact absurd (List.map_eq_nil_iff.1 all.nil_eq.symm) somewhere
  · exact (List.mergeSort_perm _ _).trans all

/-- There is a candidate for each rule that accepts a name, and one at least. -/
theorem length_candidates (globs : List Glob) (unknown : TypeId) (name : String) :
    ((Index.ofList globs unknown).candidates name).length =
      max 1 (globs.countP (·.acceptsName name)) := by
  rw [List.countP_eq_length_filter]
  by_cases nowhere : globs.filter (·.acceptsName name) = []
  · rw [candidates_of_accepted_nil unknown nowhere, nowhere]
    rfl
  · rw [(candidates_perm unknown nowhere).length_eq, List.length_map]
    exact (max_eq_right (List.length_pos_iff.2 nowhere)).symm

/-- **The candidates for a name** that some rule accepts are those of the rules that accept
it. -/
theorem mem_candidates_iff {globs : List Glob} {name : String} (unknown : TypeId)
    (somewhere : ∃ g ∈ globs, g.acceptsName name = true) {c : Candidate} :
    c ∈ (Index.ofList globs unknown).candidates name ↔
      ∃ g ∈ globs, g.acceptsName name = true ∧ g.candidate = c := by
  obtain ⟨g, mem, accepts⟩ := somewhere
  have among : g ∈ globs.filter (·.acceptsName name) := List.mem_filter.2 ⟨mem, accepts⟩
  rw [(candidates_perm unknown (List.ne_nil_of_mem among)).mem_iff, List.mem_map]
  simp only [List.mem_filter, and_assoc]

/-- The earlier stop has the earlier standings. -/
theorem standing_le_of_rank_lt {a b : Glob} (level : a.weight = b.weight)
    (before : a.stop.rank < b.stop.rank) : a.standing ≤ b.standing := by
  obtain ⟨shapeA, heededA, weightA, ownerA⟩ := a
  obtain ⟨shapeB, heededB, weightB, ownerB⟩ := b
  simp only at level
  subst level
  cases shapeA <;> cases shapeB <;>
    simp [stop, Stop.rank, standing, side, Shape.group, Shape.reach,
      Prod.Lex.toLex_lt_toLex, Prod.Lex.toLex_le_toLex] at before ⊢ <;>
    omega

/-- Bucket order among the rules that accept a name at one stop is the order of
standings. -/
theorem standing_le_of_bucketOrder {a b : Glob} {written lowered : Bytes}
    (acceptsA : a.acceptsEither written lowered = true)
    (acceptsB : b.acceptsEither written lowered = true) (together : a.stop = b.stop)
    (level : a.weight = b.weight) (before : bucketOrder a b = true) :
    a.standing ≤ b.standing := by
  obtain ⟨shapeA, heededA, weightA, ownerA⟩ := a
  obtain ⟨shapeB, heededB, weightB, ownerB⟩ := b
  simp only at level
  subst level
  cases shapeA <;> cases shapeB <;>
    simp only [stop, Stop.exact.injEq, Stop.affix.injEq, true_and, reduceCtorEq, false_and,
      Bool.true_eq_false, Bool.false_eq_true, and_false] at together
  case exact.exact textA textB =>
    -- Both rules ask for the name itself.
    subst together
    simp only [acceptsEither, accepts, Shape.accepts, beq_iff_eq] at acceptsA acceptsB
    obtain rfl := acceptsA.symm.trans acceptsB
    simpa [bucketOrder, fixedLength, standing, side, Prod.Lex.toLex_le_toLex] using before
  case leading.leading textA textB =>
    obtain ⟨long, rfl⟩ := together
    simpa [bucketOrder, fixedLength, Shape.fixedLength, long, standing, side, Shape.group,
      Shape.reach, Prod.Lex.toLex_le_toLex] using before
  case trailing.trailing textA textB =>
    obtain ⟨long, rfl⟩ := together
    simpa [bucketOrder, fixedLength, Shape.fixedLength, long, standing, side, Shape.group,
      Shape.reach, Prod.Lex.toLex_le_toLex] using before
  case pattern.pattern p q =>
    by_cases wide : p.width = q.width
    · revert before
      cases heededA <;> cases heededB <;>
        simp [bucketOrder, fixedLength, Shape.fixedLength, wide, standing, side, Shape.group,
          Shape.reach, Prod.Lex.toLex_le_toLex]
    · simp only [bucketOrder, fixedLength, Shape.fixedLength, ne_eq, not_true_eq_false, wide,
        not_false_eq_true, if_true, if_false] at before
      have wider : q.width < p.width := of_decide_eq_true before
      simp [standing, Shape.group, Shape.reach, Prod.Lex.toLex_le_toLex, wider]

theorem bucketOrder_trans (a b c : Glob) (ab : bucketOrder a b = true)
    (bc : bucketOrder b c = true) : bucketOrder a c = true := by
  simp only [bucketOrder] at ab bc ⊢
  grind

theorem bucketOrder_total (a b : Glob) : (bucketOrder a b || bucketOrder b a) = true := by
  simp only [bucketOrder]
  grind

/-- A walk finds rules of one weight in the order of their standings. -/
theorem found_pairwise (globs : List Glob) (unknown : TypeId) (written lowered : Bytes) :
    (found (globs.mergeSort bucketOrder) (Index.ofList globs unknown).affixLengths
      written lowered).Pairwise fun a b => a.weight = b.weight → a.standing ≤ b.standing := by
  have sorted := List.pairwise_mergeSort bucketOrder_trans bucketOrder_total globs
  rw [found, List.pairwise_flatMap]
  constructor
  · intro s _
    have here : ∀ g ∈ foundAt (globs.mergeSort bucketOrder) written lowered s,
        g.acceptsEither written lowered = true ∧ g.stop = s := by
      intro g mem
      obtain ⟨mem, there⟩ := List.mem_filter.1 mem
      exact ⟨(List.mem_filter.1 mem).2, by simpa using there⟩
    have bucket : (foundAt (globs.mergeSort bucketOrder) written lowered s).Pairwise
        (bucketOrder · ·) :=
      sorted.sublist (List.filter_sublist.trans List.filter_sublist)
    refine bucket.imp_of_mem ?_
    intro a b memA memB before level
    obtain ⟨acceptsA, stopA⟩ := here a memA
    obtain ⟨acceptsB, stopB⟩ := here b memB
    exact standing_le_of_bucketOrder acceptsA acceptsB (stopA.trans stopB.symm) level before
  · refine (stops_pairwise (affixLengths_pairwise globs unknown)).imp ?_
    intro s t earlier a memA b memB level
    have stopA : a.stop = s := by simpa using (List.mem_filter.1 memA).2
    have stopB : b.stop = t := by simpa using (List.mem_filter.1 memB).2
    exact standing_le_of_rank_lt level (stopA.symm ▸ stopB.symm ▸ earlier)

/-! ## The second sort -/

/-- Whether one rule has no less weight than another. -/
def noLighter (a b : Glob) : Bool := b.weight ≤ a.weight

theorem noLighter_trans (a b c : Glob) (ab : noLighter a b = true) (bc : noLighter b c = true) :
    noLighter a c = true := by
  simp only [noLighter, decide_eq_true_eq] at ab bc ⊢
  omega

theorem noLighter_total (a b : Glob) : (noLighter a b || noLighter b a) = true := by
  simp only [noLighter, Bool.or_eq_true, decide_eq_true_eq]
  omega

theorem standing_le_of_weight_lt {a b : Glob} (heavier : b.weight < a.weight) :
    a.standing ≤ b.standing := by
  rw [standing, standing, Prod.Lex.toLex_le_toLex]
  exact Or.inl (OrderDual.toDual_lt_toDual.2 heavier)

/-- Sorted by weight, what a walk has found is in the order of standings. -/
theorem found_sorted_pairwise (globs : List Glob) (unknown : TypeId) (written lowered : Bytes) :
    ((found (globs.mergeSort bucketOrder) (Index.ofList globs unknown).affixLengths
      written lowered).mergeSort noLighter).Pairwise fun a b => a.standing ≤ b.standing := by
  have refined := StableSort.pairwise_mergeSort_refine noLighter_trans noLighter_total
    (found_pairwise globs unknown written lowered)
  refine refined.imp ?_
  rintro a b ⟨notLighter, kept⟩
  simp only [noLighter, decide_eq_true_eq] at notLighter kept
  rcases Nat.lt_or_eq_of_le notLighter with heavier | level
  · exact standing_le_of_weight_lt heavier
  · exact kept level.ge level.symm

/-- **Looking a name up is trying every rule.** For any rules whatever, what an index of
them answers for a name is the plain scan: the candidates of all accepting rules, one for
each, in the order of their standings, or the unknown type alone. -/
theorem candidates_ofList (globs : List Glob) (unknown : TypeId) (name : String) :
    (Index.ofList globs unknown).candidates name = plainScan globs unknown name := by
  have perm := found_perm globs unknown (Text.utf8 name) (Text.utf8 (Text.lowercase name))
  have inOrder := found_sorted_pairwise globs unknown (Text.utf8 name)
    (Text.utf8 (Text.lowercase name))
  rw [filter_acceptsEither] at perm
  rw [Index.candidates, plainScan, collect_ofList]
  generalize found (globs.mergeSort bucketOrder) _ _ _ = walked at perm inOrder ⊢
  cases scanned : globs.filter (·.acceptsName name) with
  | nil =>
      rw [scanned] at perm
      rw [perm.eq_nil]
      rfl
  | cons g rest =>
      rw [scanned] at perm
      cases walked with
      | nil => exact absurd perm.nil_eq (by simp)
      | cons g' rest' =>
          show ((g' :: rest').map candidate).mergeSort (fun a b => b.weight ≤ a.weight) =
            ((g :: rest).mergeSort fun a b => a.standing ≤ b.standing).map candidate
          have byWeight : ((g' :: rest').mergeSort noLighter).map candidate =
              ((g' :: rest').map candidate).mergeSort fun a b => b.weight ≤ a.weight :=
            List.map_mergeSort fun a _ b _ => rfl
          rw [← byWeight]
          apply map_candidate_eq
          · exact (List.mergeSort_perm _ _).trans (perm.trans (List.mergeSort_perm _ _).symm)
          · exact inOrder
          · exact standing_mergeSort_pairwise _

end MediaSniff.Glob
