/-
# MediaSniff.Proofs.Layout.Snapshot — what a snapshot knows of a list

A snapshot is asked what stands at a path and whether anything lies below it, with respect
to case or without. Both can be answered from the list of entries that it is made of: at a
path stands the last entry that is filed under it (`find?_ofList`), and something lies below
it if some entry is filed under the path, a slash and anything behind (`hasBelow_ofList`).

The paths with something below them are collected entry by entry, going up from the longest
and stopping at one that is known. Stopping is right because the collection is closed: with a
path it has all those above it. While one entry is gone through this is so only of the paths
shorter than what is left of it, and that is what the induction of `mem_addHolders` asks.
-/
import MediaSniff.Layout.Snapshot
import MediaSniff.Proofs.Grouping
import Mathlib.Data.List.Induction

set_option autoImplicit false

namespace MediaSniff.Layout

/-! ## Paths below paths -/

/-- A path lies below another: it is that one, a slash and anything behind. -/
def LiesBelow (path holder : String) : Prop :=
  ∃ rest, path.toList = holder.toList ++ '/' :: rest

theorem LiesBelow.trans {path holder above : String} (low : LiesBelow path holder)
    (high : LiesBelow holder above) : LiesBelow path above := by
  obtain ⟨rest, below⟩ := low
  obtain ⟨rest', above'⟩ := high
  exact ⟨rest' ++ '/' :: rest, by simp [below, above']⟩

/-- Told from the end of a path, as it is gone through. -/
theorem liesBelow_iff_reverse {path holder : String} :
    LiesBelow path holder ↔
      ∃ front, path.toList.reverse = front ++ '/' :: holder.toList.reverse := by
  constructor
  · rintro ⟨rest, below⟩
    exact ⟨rest.reverse, by simp [below]⟩
  · rintro ⟨front, below⟩
    refine ⟨front.reverse, ?_⟩
    rw [← List.reverse_inj, below]
    simp

/-- With a path that is shorter than `bound` the paths above it are there. -/
def ClosedTo (bound : Nat) (holders : Std.HashSet String) : Prop :=
  ∀ holder ∈ holders, holder.toList.length < bound →
    ∀ above, LiesBelow holder above → above ∈ holders

theorem mem_addHolders (q : String) : ∀ (reversed : List Char) (holders : Std.HashSet String),
    ClosedTo reversed.length holders →
      (q ∈ PathTable.addHolders holders reversed ↔
        q ∈ holders ∨ ∃ front, reversed = front ++ '/' :: q.toList.reverse)
  | [], holders, _ => by simp [PathTable.addHolders]
  | c :: cs, holders, closed => by
      have shorter : ClosedTo cs.length holders := fun holder mem short =>
        closed holder mem (Nat.lt_succ_of_lt short)
      have below : (∃ front, c :: cs = front ++ '/' :: q.toList.reverse) ↔
          (c = '/' ∧ q = String.ofList cs.reverse) ∨
            ∃ front, cs = front ++ '/' :: q.toList.reverse := by
        constructor
        · rintro ⟨front, whole⟩
          cases front with
          | nil =>
              obtain ⟨rfl, rfl⟩ := List.cons.inj whole
              exact .inl ⟨rfl, by simp⟩
          | cons _ front => exact .inr ⟨front, (List.cons.inj whole).2⟩
        · rintro (⟨rfl, rfl⟩ | ⟨front, rfl⟩)
          · exact ⟨[], by simp⟩
          · exact ⟨c :: front, rfl⟩
      rw [PathTable.addHolders, below]
      by_cases slash : c = '/'
      · subst slash
        have length : (String.ofList cs.reverse).toList.length = cs.length := by simp
        simp only [if_true]
        split
        · -- What is known here was known before, so it is closed.
          rename_i known
          have known : String.ofList cs.reverse ∈ holders := known
          refine ⟨.inl, ?_⟩
          rintro (old | ⟨-, rfl⟩ | above)
          · exact old
          · exact known
          · refine closed _ known (by simp) q (liesBelow_iff_reverse.2 ?_)
            simpa using above
        · have closed' : ClosedTo cs.length (holders.insert (String.ofList cs.reverse)) := by
            intro holder mem short above lies
            rcases Std.HashSet.mem_insert.1 mem with same | old
            · rw [← eq_of_beq same, length] at short
              exact absurd short (Nat.lt_irrefl _)
            · exact Std.HashSet.mem_insert.2 (.inr (shorter holder old short above lies))
          rw [mem_addHolders q cs _ closed', Std.HashSet.mem_insert]
          simp only [beq_iff_eq, true_and, or_assoc]
          rw [@eq_comm _ q]
          exact or_left_comm
      · rw [if_neg slash, mem_addHolders q cs holders shorter]
        simp [slash]

/-! ## Tables of paths -/

/-- The path under which an entry is filed. -/
def filedUnder (matchCase : Bool) (path : String) : String :=
  if matchCase then path else Text.lowercase path

/-- The entry at a path. Of several entries filed under it the last one stands. -/
def entryAt (entries : List (String × Entry)) (matchCase : Bool) (path : String) : Option Entry :=
  (entries.reverse.find? fun e => filedUnder matchCase e.1 == path).map (·.2)

theorem table_insert (s : Snapshot) (path : String) (e : Entry) (matchCase : Bool) :
    (s.insert path e).table matchCase =
      (s.table matchCase).insert (filedUnder matchCase path) e := by
  cases matchCase <;> rfl

theorem table_foldl_insert (entries : List (String × Entry)) (s : Snapshot) (matchCase : Bool) :
    (entries.foldl (fun s e => s.insert e.1 e.2) s).table matchCase =
      entries.foldl (fun t e => t.insert (filedUnder matchCase e.1) e.2) (s.table matchCase) := by
  induction entries generalizing s with
  | nil => rfl
  | cons e entries ih => rw [List.foldl_cons, List.foldl_cons, ih, table_insert]

/-- A table of a snapshot is filled on its own. -/
theorem table_ofList (entries : List (String × Entry)) (matchCase : Bool) :
    (Snapshot.ofList entries).table matchCase =
      entries.foldl (fun t e => t.insert (filedUnder matchCase e.1) e.2) {} := by
  rw [Snapshot.ofList, table_foldl_insert]
  cases matchCase <;> rfl

/-- **What stands at a path.** -/
theorem find?_ofList (entries : List (String × Entry)) (path : String) (matchCase : Bool) :
    (Snapshot.ofList entries).find? path matchCase = entryAt entries matchCase path := by
  have entries_eq : ((Snapshot.ofList entries).table matchCase).entries =
      entries.foldl (fun m e => m.insert (filedUnder matchCase e.1) e.2) ∅ := by
    rw [table_ofList]
    exact (List.foldl_hom PathTable.entries fun _ _ => rfl).symm
  rw [Snapshot.find?, entries_eq,
    getElem?_foldl_insert (fun e : String × Entry => filedUnder matchCase e.1) (·.2), entryAt]
  simp

theorem mem_foldl_addHolders (paths : List String) (q : String) :
    q ∈ paths.foldl (fun holders path => PathTable.addHolders holders path.toList.reverse) ∅ ↔
      ∃ path ∈ paths, LiesBelow path q := by
  induction paths using List.reverseRecOn generalizing q with
  | nil => simp
  | append_singleton paths path ih =>
      rw [List.foldl_concat, mem_addHolders q, ih, ← liesBelow_iff_reverse]
      · simp only [List.mem_append, List.mem_singleton, or_and_right, exists_or, exists_eq_left]
      · intro holder mem _ above lies
        obtain ⟨path, inside, below⟩ := (ih holder).1 mem
        exact (ih above).2 ⟨path, inside, below.trans lies⟩

/-- **Whether anything lies below a path.** -/
theorem hasBelow_ofList (entries : List (String × Entry)) (path : String) (matchCase : Bool) :
    (Snapshot.ofList entries).hasBelow path matchCase = true ↔
      ∃ e ∈ entries, LiesBelow (filedUnder matchCase e.1) path := by
  have holders_eq : ((Snapshot.ofList entries).table matchCase).holders =
      (entries.map fun e => filedUnder matchCase e.1).foldl
        (fun holders path => PathTable.addHolders holders path.toList.reverse) ∅ := by
    rw [table_ofList, List.foldl_map]
    exact (List.foldl_hom PathTable.holders fun _ _ => rfl).symm
  rw [Snapshot.hasBelow, holders_eq, Std.HashSet.contains_iff_mem, mem_foldl_addHolders]
  simp

end MediaSniff.Layout
