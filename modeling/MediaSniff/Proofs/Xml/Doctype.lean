/-
# MediaSniff.Proofs.Xml.Doctype — document type declarations

The grammar of a document type declaration (`Doctype`): a name, an external identifier, and
an internal subset in brackets, which holds declarations with quoted literals, comments and
instructions. It knows nothing of the scanner, which reads the whole declaration flat, as
quotes, brackets and other characters; `Leads` says without the scanner what such a reading
makes of a text.

A declaration is passed over as a whole exactly if its text, read flat, comes out of its
brackets at its end (`Doctype.skipped_iff_leads`). Literals cannot prevent that, since a quote
opens and closes them for the scanner as well. A comment or an instruction can: nothing makes
the quotes and brackets in a remark come in pairs. If they do, in each remark by itself, the
declaration is passed over (`Doctype.leads_text`), and an element behind it is classified as if
the declaration were any other that is passed over (`Doctype.exists_classify_eq`).
-/
import MediaSniff.Proofs.Xml.Reading
import MediaSniff.Proofs.Xml.Roots

set_option autoImplicit false

namespace MediaSniff.Xml

namespace Written

/-! ## Declarations as they are written -/

/-- The characters that begin or end a declaration, a subset or a literal. -/
def boundaries : List Char := ['<', '>', '[', ']', '"', '\x27']

/-- Whether a character stands for itself wherever it stands in a declaration. -/
def isBare (c : Char) : Bool := !boundaries.contains c

/-- A part of a declaration: names, white space, references and the like, or a literal, which
holds whatever its quotes do not close. -/
inductive Part where
  | bare (cs : List Char) (proper : cs.all isBare = true)
  | literal (quote : Char) (value : List Char) (quotes : isQuote quote = true)
      (unquoted : quote ∉ value)

def Part.render : Part → List Char
  | .bare cs _ => cs
  | .literal quote value _ _ => quote :: (value ++ [quote])

/-- What an internal subset consists of. -/
inductive Item where
  /-- White space and references to parameter entities. -/
  | spacing (cs : List Char) (proper : cs.all isBare = true)
  /-- The declaration of an element, of attributes, of an entity or of a notation. -/
  | declaration (parts : List Part)
  | comment (cs : List Char) (inside : ¬ ['-', '-'] <:+: cs)
  | instruction (cs : List Char) (inside : ¬ ['?', '>'] <:+: cs)

namespace Item

def render : Item → List Char
  | .spacing cs _ => cs
  | .declaration parts => ['<', '!'] ++ parts.flatMap Part.render ++ ['>']
  | .comment cs _ => ['<', '!', '-', '-'] ++ cs ++ ['-', '-', '>']
  | .instruction cs _ => ['<', '?'] ++ cs ++ ['?', '>']

/-- The text of a comment or an instruction. -/
def remark? : Item → Option (List Char)
  | .comment cs _ => some cs
  | .instruction cs _ => some cs
  | _ => none

end Item

/-- A document type declaration. -/
structure Doctype where
  gap : Space
  apart : gap.chars ≠ []
  name : Name
  proper : name.chars.all isBare = true
  /-- The external identifier with the white space around it. -/
  external : List Part
  subset? : Option (List Item)
  ending : Space

namespace Doctype

def keyword : List Char := ['D', 'O', 'C', 'T', 'Y', 'P', 'E']

/-- An internal subset with its brackets. -/
def subsetText : Option (List Item) → List Char
  | none => []
  | some items => ['['] ++ items.flatMap Item.render ++ [']']

/-- What stands between `<!` and the `>` that ends the declaration. -/
def text (d : Doctype) : List Char :=
  keyword ++ d.gap.chars ++ d.name.chars ++ d.external.flatMap Part.render ++
    subsetText d.subset? ++ d.ending.chars

def render (d : Doctype) : List Char := '<' :: '!' :: (d.text ++ ['>'])

/-- The texts of the comments and instructions in a declaration. -/
def remarks (d : Doctype) : List (List Char) := (d.subset?.getD []).filterMap Item.remark?

/-- The declaration `<!DOCTYPE x>`. -/
def plain : Doctype where
  gap := .single
  apart := Space.single_ne_nil
  name := ⟨['x'], by decide, by decide⟩
  proper := by decide
  external := []
  subset? := none
  ending := .none

/-- Whether the scanner goes on just behind the `>` that ends the declaration, whatever
stands there. -/
def Skipped (d : Doctype) : Prop :=
  ∀ rest, afterDirective? (d.text ++ '>' :: rest) = some rest

end Doctype

end Written

/-! ## Reading flat -/

/-- A text leads from one depth of brackets to another if it is read flat, as runs between
quotes, brackets and other characters, and no `>` in it is outside of all of them. A bracket
that closes where none is open changes nothing. -/
inductive Leads : Nat → List Char → Nat → Prop where
  | nil (depth : Nat) : Leads depth [] depth
  | quoted {m n : Nat} {q : Char} {value cs : List Char} (quotes : isQuote q = true)
      (unquoted : q ∉ value) (later : Leads m cs n) : Leads m (q :: (value ++ q :: cs)) n
  | opening {m n : Nat} {cs : List Char} (later : Leads (m + 1) cs n) : Leads m ('[' :: cs) n
  | closing {m n : Nat} {cs : List Char} (later : Leads (m - 1) cs n) : Leads m (']' :: cs) n
  | other {m n : Nat} {c : Char} {cs : List Char} (unquoted : isQuote c = false)
      (bracketless : c ≠ '[' ∧ c ≠ ']') (inside : c = '>' → 0 < m) (later : Leads m cs n) :
      Leads m (c :: cs) n

theorem Leads.append {k m n : Nat} {cs ds : List Char} (first : Leads k cs m)
    (second : Leads m ds n) : Leads k (cs ++ ds) n := by
  induction first with
  | nil => exact second
  | quoted quotes unquoted _ ih =>
      rw [List.cons_append, List.append_assoc]
      exact .quoted quotes unquoted (ih second)
  | opening _ ih => exact .opening (ih second)
  | closing _ ih => exact .closing (ih second)
  | other unquoted bracketless inside _ ih => exact .other unquoted bracketless inside (ih second)

theorem leads_flatMap {α : Type} {m : Nat} {f : α → List Char} {xs : List α}
    (each : ∀ x ∈ xs, Leads m (f x) m) : Leads m (xs.flatMap f) m := by
  induction xs with
  | nil => exact .nil m
  | cons x xs ih =>
      obtain ⟨here, later⟩ := List.forall_mem_cons.1 each
      exact here.append (ih later)

/-- Whether a character is neither a quote nor a bracket. -/
def isUnmarked (c : Char) : Bool := !isQuote c && c != '[' && c != ']'

theorem isUnmarked_iff {c : Char} :
    isUnmarked c = true ↔ isQuote c = false ∧ c ≠ '[' ∧ c ≠ ']' := by
  simp [isUnmarked, and_assoc]

/-- Text without quotes and brackets stays where it is, if no `>` in it is outside. -/
theorem leads_of_unmarked {m : Nat} {cs : List Char} (unmarked : cs.all isUnmarked = true)
    (inside : '>' ∈ cs → 0 < m) : Leads m cs m := by
  induction cs with
  | nil => exact .nil m
  | cons c cs ih =>
      rw [List.all_cons, Bool.and_eq_true, isUnmarked_iff] at unmarked
      obtain ⟨⟨unquoted, bracketless⟩, later⟩ := unmarked
      refine .other unquoted bracketless (fun close => inside ?_) (ih later fun mem => inside ?_)
      · exact close ▸ List.mem_cons_self
      · exact List.mem_cons_of_mem c mem

/-- Within the brackets such a text may hold any angle brackets. -/
theorem leads_within {m : Nat} {cs : List Char} (unmarked : cs.all isUnmarked = true) :
    Leads (m + 1) cs (m + 1) :=
  leads_of_unmarked unmarked fun _ => m.succ_pos

/-! ### What the scanner makes of a text that leads -/

theorem afterBrackets?_quoted {q : Char} {value : List Char} (unquoted : q ∉ value) (depth : Nat)
    (rest : List Char) :
    afterBrackets? depth (some q) (value ++ q :: rest) = afterBrackets? depth none rest := by
  induction value with
  | nil => simp [afterBrackets?]
  | cons c value ih =>
      obtain ⟨here, later⟩ := not_or.1 (mt List.mem_cons.2 unquoted)
      rw [List.cons_append, afterBrackets?, if_neg (Ne.symm here), ih later]

theorem Leads.afterBrackets?_append {m n : Nat} {cs : List Char} (leads : Leads m cs n)
    (rest : List Char) : afterBrackets? m none (cs ++ rest) = afterBrackets? n none rest := by
  induction leads with
  | nil => rfl
  | quoted quotes unquoted _ ih =>
      rw [List.cons_append, List.append_assoc, afterBrackets?, if_pos quotes, List.cons_append,
        afterBrackets?_quoted unquoted, ih]
  | opening _ ih => exact ih
  | closing _ ih => exact ih
  | @other m n c cs unquoted bracketless inside _ ih =>
      have notEnd : ¬ (decide (c = '>') && decide (m = 0)) = true := by
        simp only [Bool.and_eq_true, decide_eq_true_eq]
        rintro ⟨close, outside⟩
        exact (inside close).ne' outside
      rw [List.cons_append, afterBrackets?, unquoted, if_neg Bool.false_ne_true,
        if_neg bracketless.1, if_neg bracketless.2, if_neg notEnd, ih]

/-- A text that the scanner leaves just behind its end leads out of the brackets. One in which
a quote is open has the end of the quoted run first, and what follows that leads out. -/
theorem leads_of_afterBrackets? {m : Nat} {cs : List Char} :
    (afterBrackets? m none (cs ++ ['>']) = some [] → Leads m cs 0) ∧
      ∀ q, isQuote q = true → afterBrackets? m (some q) (cs ++ ['>']) = some [] →
        ∃ value later, cs = value ++ q :: later ∧ q ∉ value ∧ Leads m later 0 := by
  induction cs generalizing m with
  | nil =>
      constructor
      · intro ends
        cases m with
        | zero => exact .nil 0
        | succ m => simp [afterBrackets?, isQuote] at ends
      · intro q quotes ends
        simp [afterBrackets?] at ends
  | cons c cs ih =>
      constructor
      · intro ends
        rw [List.cons_append, afterBrackets?] at ends
        split at ends
        · rename_i quotes
          obtain ⟨value, later, rfl, unquoted, leads⟩ := (ih (m := m)).2 c quotes ends
          exact .quoted quotes unquoted leads
        rename_i unquoted
        split at ends
        · rename_i isOpening
          exact isOpening ▸ .opening (ih.1 ends)
        rename_i notOpening
        split at ends
        · rename_i isClosing
          exact isClosing ▸ .closing (ih.1 ends)
        rename_i notClosing
        split at ends
        · -- The scanner stops here already, and something is left.
          simp at ends
        · rename_i goesOn
          refine .other (by simpa using unquoted) ⟨notOpening, notClosing⟩ ?_ (ih.1 ends)
          intro close
          simpa [close, Nat.pos_iff_ne_zero] using goesOn
      · intro q quotes ends
        rw [List.cons_append, afterBrackets?] at ends
        split at ends
        · rename_i same
          exact ⟨[], cs, by rw [same]; rfl, List.not_mem_nil, ih.1 ends⟩
        · rename_i other
          obtain ⟨value, later, rfl, unquoted, leads⟩ := ih.2 q quotes ends
          exact ⟨c :: value, later, rfl, List.not_mem_cons_of_ne_of_not_mem (Ne.symm other) unquoted,
            leads⟩

/-! ## What a declaration leads to -/

namespace Written

theorem isBare_iff {c : Char} :
    isBare c = true ↔ (c ≠ '<' ∧ c ≠ '>') ∧ (c ≠ '[' ∧ c ≠ ']') ∧ isQuote c = false := by
  simp [isBare, boundaries, isQuote, and_assoc]

theorem leads_of_bare {cs : List Char} (proper : cs.all isBare = true) (m : Nat) :
    Leads m cs m := by
  have bare := fun c mem => isBare_iff.1 (List.all_eq_true.1 proper c mem)
  refine leads_of_unmarked (List.all_eq_true.2 fun c mem => ?_) fun close => ?_
  · exact isUnmarked_iff.2 ⟨(bare c mem).2.2, (bare c mem).2.1⟩
  · exact absurd rfl (bare '>' close).1.2

theorem Space.all_isBare (s : Space) : s.chars.all isBare = true := by
  rw [List.all_eq_true]
  intro c mem
  have blank := List.all_eq_true.1 s.blank c mem
  rw [isBare_iff]
  refine ⟨⟨?_, ?_⟩, ⟨?_, ?_⟩, isQuote_of_mem_delimiters (s.not_mem_delimiters c mem)⟩ <;>
    · rintro rfl
      revert blank
      decide

/-- A literal is a quoted run, whatever it holds. -/
theorem Part.leads (p : Part) (m : Nat) : Leads m p.render m := by
  cases p with
  | bare cs proper => exact leads_of_bare proper m
  | literal quote value quotes unquoted => exact .quoted quotes unquoted (.nil m)

/-- **An item leads from within the brackets to within the brackets**, if its remark does.
There is no condition on declarations: the `>` that ends one is inside the brackets. -/
theorem Item.leads {i : Item} (paired : ∀ cs ∈ i.remark?, Leads 1 cs 1) : Leads 1 i.render 1 := by
  cases i with
  | spacing cs proper => exact leads_of_bare proper 1
  | declaration parts =>
      have opened : Leads 1 ['<', '!'] 1 := leads_within (by decide)
      have closed : Leads 1 ['>'] 1 := leads_within (by decide)
      exact (opened.append (leads_flatMap fun p _ => p.leads 1)).append closed
  | comment cs _ =>
      have opened : Leads 1 ['<', '!', '-', '-'] 1 := leads_within (by decide)
      have closed : Leads 1 ['-', '-', '>'] 1 := leads_within (by decide)
      exact (opened.append (paired cs rfl)).append closed
  | instruction cs _ =>
      have opened : Leads 1 ['<', '?'] 1 := leads_within (by decide)
      have closed : Leads 1 ['?', '>'] 1 := leads_within (by decide)
      exact (opened.append (paired cs rfl)).append closed

namespace Doctype

theorem leads_subsetText {subset? : Option (List Item)}
    (paired : ∀ cs ∈ (subset?.getD []).filterMap Item.remark?, Leads 1 cs 1) :
    Leads 0 (subsetText subset?) 0 := by
  cases subset? with
  | none => exact .nil 0
  | some items =>
      have within : Leads 1 (items.flatMap Item.render) 1 := leads_flatMap fun i mem =>
        Item.leads fun cs remark => paired cs (List.mem_filterMap.2 ⟨i, mem, remark⟩)
      exact .opening (within.append (.closing (.nil 0)))

/-- **A declaration leads out of its brackets** if each of its remarks keeps to its depth. -/
theorem leads_text {d : Doctype} (paired : ∀ cs ∈ d.remarks, Leads 1 cs 1) :
    Leads 0 d.text 0 := by
  have front : Leads 0 (keyword ++ d.gap.chars ++ d.name.chars) 0 :=
    ((leads_of_bare (by decide) 0).append (leads_of_bare d.gap.all_isBare 0)).append
      (leads_of_bare d.proper 0)
  have external := leads_flatMap fun (p : Part) (_ : p ∈ d.external) => p.leads 0
  exact ((front.append external).append (leads_subsetText paired)).append
    (leads_of_bare d.ending.all_isBare 0)

/-- A declaration begins with a letter, so it is neither a comment nor a section of character
data. -/
theorem not_prefix_text_append {c : Char} (other : c ≠ 'D') (cs : List Char) (d : Doctype)
    (rest : List Char) : ¬ c :: cs <+: d.text ++ rest :=
  fun start => other (List.cons_prefix_cons.1 start).1

theorem afterDirective?_text_append (d : Doctype) (rest : List Char) :
    afterDirective? (d.text ++ rest) = afterBrackets? 0 none (d.text ++ rest) :=
  afterDirective?_of_not_section (not_prefix_text_append (by decide) _ d rest)

/-- **A declaration is passed over as a whole exactly if it leads out of its brackets.** -/
theorem skipped_iff_leads (d : Doctype) : d.Skipped ↔ Leads 0 d.text 0 := by
  constructor
  · intro skipped
    have ends := skipped []
    rw [afterDirective?_text_append] at ends
    exact leads_of_afterBrackets?.1 ends
  · intro leads rest
    rw [afterDirective?_text_append, leads.afterBrackets?_append]
    rfl

theorem skipped_plain : plain.Skipped :=
  (skipped_iff_leads plain).2 (leads_text nofun)

end Doctype

end Written

/-! ## What stands behind a declaration -/

/-- Whether a text holds the start tag of an element that is registered. -/
def RootTable.FindsIn (t : RootTable) (cs : List Char) : Prop :=
  ∃ m ∈ markups cs, ∃ e ∈ m.element?, (t.ofElement? e).isSome = true

namespace Written.Doctype

theorem markups_render_append {d : Doctype} (skipped : d.Skipped) (rest : List Char) :
    markups (d.render ++ rest) = .directive :: markups rest := by
  have found : Markup.first? ('!' :: (d.text ++ '>' :: rest)) = some (.directive, rest) := by
    rw [Markup.first?_directive (not_prefix_text_append (by decide) _ d _), skipped rest,
      Option.map_some]
  rw [← markups_of_first?_eq_some found]
  simp [render]

/-- A document that shows pieces of markup, a declaration that is passed over, and a
registered element behind it has a type that the declaration has no part in. -/
theorem exists_classify_eq {t : RootTable} (front : List Piece) {following : List Char}
    (finds : t.FindsIn following) :
    ∃ id, ∀ (d : Doctype) (data : Bytes), d.Skipped →
      front.flatMap Piece.render ++ d.render ++ following <+: decode data →
        t.classify data = id := by
  obtain ⟨m, mem, e, element, registered⟩ := finds
  have among : m ∈ front.flatMap Piece.markups ++ .directive :: markups following :=
    List.mem_append_right _ (List.mem_cons_of_mem _ mem)
  obtain ⟨id, settled⟩ := RootTable.exists_ofMarkups_append among element registered
  refine ⟨id, fun d data skipped shown => ?_⟩
  obtain ⟨more, whole⟩ := shown
  obtain ⟨later, longer⟩ := markups_mono (List.prefix_append following more)
  have pieces : markups (decode data) =
      (front.flatMap Piece.markups ++ .directive :: markups following) ++ later := by
    rw [← whole, List.append_assoc, List.append_assoc, Piece.markups_flatMap_render_append,
      markups_render_append skipped, ← longer, List.append_assoc, List.cons_append]
  rw [RootTable.classify, pieces, settled]

/-- **What becomes of a document type declaration.** The scanner passes over it as a whole
exactly if its text leads out of its brackets, which is so whenever each of its comments and
instructions keeps to its depth. What is passed over counts for no more than `<!DOCTYPE x>`:
an element behind it that is registered classifies a document as it would behind that, in
whichever encoding. -/
theorem passed_over_iff_leads (d : Doctype) :
    (d.Skipped ↔ Leads 0 d.text 0) ∧
    ((∀ cs ∈ d.remarks, Leads 1 cs 1) → d.Skipped) ∧
    (d.Skipped → ∀ (t : RootTable) (front : List Piece) (following : List Char)
      (data plainData : Bytes),
      front.flatMap Piece.render ++ d.render ++ following <+: decode data →
      front.flatMap Piece.render ++ plain.render ++ following <+: decode plainData →
      t.FindsIn following → t.classify data = t.classify plainData) := by
  refine ⟨skipped_iff_leads d, fun paired => (skipped_iff_leads d).2 (leads_text paired), ?_⟩
  intro skipped t front following data plainData shown plainShown finds
  obtain ⟨id, settled⟩ := exists_classify_eq front finds
  rw [settled d data skipped shown, settled plain plainData skipped_plain plainShown]

/-- The declaration of a document type `svg` with the given subset. -/
def ofItems (items : List Item) : Doctype where
  gap := .single
  apart := Space.single_ne_nil
  name := ⟨['s', 'v', 'g'], by decide, by decide⟩
  proper := by decide
  external := [.bare [' '] (by decide)]
  subset? := some items
  ending := .none

theorem isQuote_double : isQuote '"' = true := by decide

/-- The declaration `<!DOCTYPE svg [<!ENTITY a "]>'"><!-- as "]" [sic] -->]>`. -/
def sicDoctype : Doctype :=
  ofItems
    [.declaration
      [.bare ['E', 'N', 'T', 'I', 'T', 'Y', ' ', 'a', ' '] (by decide),
       .literal '"' [']', '>', '\x27'] isQuote_double (by decide)],
     .comment [' ', 'a', 's', ' ', '"', ']', '"', ' ', '[', 's', 'i', 'c', ']', ' '] (by decide)]

/-- Two elements that are registered by their names. -/
def feedAndPicture : RootTable :=
  RootTable.ofList [⟨"", "rss", ⟨11⟩⟩, ⟨"", "svg", ⟨12⟩⟩] ⟨⟨0⟩, ⟨1⟩, ⟨2⟩, ⟨3⟩, ⟨4⟩⟩

theorem feedAndPicture_eq :
    feedAndPicture = ⟨[⟨"", "rss", ⟨11⟩⟩, ⟨"", "svg", ⟨12⟩⟩], ⟨⟨0⟩, ⟨1⟩, ⟨2⟩, ⟨3⟩, ⟨4⟩⟩⟩ := by
  simp [feedAndPicture, RootTable.ofList, List.mergeSort_of_pairwise]

/-- A declaration with the start tag `<svg>` behind it. -/
def picture (d : Doctype) : Bytes :=
  Text.utf8 (String.ofList (d.render ++ ['<', 's', 'v', 'g', '>']))

/-- What a literal and a comment hold leads nowhere, if only their quotes and brackets pair. -/
theorem sicDoctype_passed_over :
    sicDoctype.Skipped ∧
      feedAndPicture.classify (picture sicDoctype) = feedAndPicture.classify (picture plain) := by
  have note : Leads 1 ([' ', 'a', 's', ' '] ++ '"' :: ([']'] ++ '"' :: ([' '] ++
      '[' :: (['s', 'i', 'c'] ++ ']' :: [' '])))) 1 := by
    have behind : Leads 2 (['s', 'i', 'c'] ++ ']' :: [' ']) 1 :=
      (leads_within (by decide)).append (.closing (leads_within (by decide)))
    have quoted : Leads 1 ('"' :: ([']'] ++ '"' :: ([' '] ++ '[' :: (['s', 'i', 'c'] ++
        ']' :: [' '])))) 1 :=
      .quoted (by decide) (by decide) ((leads_within (by decide)).append (.opening behind))
    exact (leads_within (by decide)).append quoted
  have paired : ∀ cs ∈ sicDoctype.remarks, Leads 1 cs 1 := by
    intro cs mem
    obtain rfl := List.mem_singleton.1 mem
    exact note
  have skipped := (passed_over_iff_leads sicDoctype).2.1 paired
  have shown : ([] : List Piece).flatMap Piece.render ++ sicDoctype.render ++
      ['<', 's', 'v', 'g', '>'] <+: decode (picture sicDoctype) := by
    decide +kernel
  have plainShown : ([] : List Piece).flatMap Piece.render ++ plain.render ++
      ['<', 's', 'v', 'g', '>'] <+: decode (picture plain) := by
    decide +kernel
  have finds : feedAndPicture.FindsIn ['<', 's', 'v', 'g', '>'] := by
    rw [feedAndPicture_eq]
    exact ⟨.startTag ['s', 'v', 'g'], by decide +kernel, ⟨['s', 'v', 'g'], []⟩, by decide +kernel,
      by decide +kernel⟩
  exact ⟨skipped, (passed_over_iff_leads sicDoctype).2.2 skipped feedAndPicture [] _ _ _ shown
    plainShown finds⟩

/-- The declaration `<!DOCTYPE svg [<!-- don't -->]>`. -/
def apostropheDoctype : Doctype :=
  ofItems [.comment [' ', 'd', 'o', 'n', '\x27', 't', ' '] (by decide)]

/-- The declaration `<!DOCTYPE svg [<!-- ]> <rss> -->]>`. -/
def bracketDoctype : Doctype :=
  ofItems [.comment [' ', ']', '>', ' ', '<', 'r', 's', 's', '>', ' '] (by decide)]

/-- **A comment within a declaration is not read as one.** An apostrophe in it hides the end
of the declaration and all that follows; a bracket in it ends the declaration in the middle
of the comment, and the rest of the comment is taken for markup. -/
theorem remark_misread :
    (¬ apostropheDoctype.Skipped ∧ feedAndPicture.classify (picture apostropheDoctype) = ⟨0⟩) ∧
    (¬ bracketDoctype.Skipped ∧ feedAndPicture.classify (picture bracketDoctype) = ⟨11⟩) ∧
    feedAndPicture.classify (picture plain) = ⟨12⟩ := by
  rw [feedAndPicture_eq]
  refine ⟨⟨fun skipped => ?_, by decide +kernel⟩, ⟨fun skipped => ?_, by decide +kernel⟩,
    by decide +kernel⟩
  · have hidden : afterDirective? (apostropheDoctype.text ++ ['>']) ≠ some [] := by decide
    exact hidden (skipped [])
  · have early : afterDirective? (bracketDoctype.text ++ ['>']) ≠ some [] := by decide
    exact early (skipped [])

end Written.Doctype

end MediaSniff.Xml
