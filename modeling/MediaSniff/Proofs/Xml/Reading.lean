/-
# MediaSniff.Proofs.Xml.Reading — what is written is read

The scanner reads a tag twice. First it looks for the end, and knows of nothing but quotes;
then it takes the text apart into a name and attributes, and knows of white space, slashes
and equals signs as well. On a tag that is written as XML writes it the two agree: outside
its values there is no quote that would hide the end (`Tag.balanced_text`), and the
attributes are found one by one, with their values, however these look
(`attributes_attributeText`).

So the pieces of markup in an opening are those that were written
(`Opening.markups_text_append`), and its tags have the names and the namespaces that they were
given.
-/
import MediaSniff.Proofs.Text.Runs
import MediaSniff.Proofs.Xml.Decoding
import MediaSniff.Proofs.Xml.Written

set_option autoImplicit false

namespace MediaSniff.Xml.Written

/-! ## Characters of names -/

theorem not_mem_delimiters {c : Char} (proper : isNameChar c = true) : c ∉ delimiters := by
  simpa using (Bool.and_eq_true_iff.1 proper).2

theorem isTagBreak_of_isNameChar {c : Char} (proper : isNameChar c = true)
    (solid : Text.isBlank c = false) : isTagBreak c = false := by
  have notSlash : c ≠ '/' := fun slash => not_mem_delimiters proper (slash ▸ by decide)
  simpa [isTagBreak, solid] using notSlash

theorem endsAttributeName_of_isNameChar {c : Char} (proper : isNameChar c = true)
    (solid : Text.isBlank c = false) : endsAttributeName c = false := by
  have notEquals : c ≠ '=' := fun equals => not_mem_delimiters proper (equals ▸ by decide)
  simpa [endsAttributeName, solid] using notEquals

theorem isQuote_iff {c : Char} : isQuote c = true ↔ c = '"' ∨ c = '\x27' := by
  simp [isQuote]

theorem isQuote_of_mem_delimiters {c : Char} (other : c ∉ delimiters) : isQuote c = false := by
  rw [Bool.eq_false_iff]
  intro quote
  rcases isQuote_iff.1 quote with rfl | rfl <;> exact other (by decide)

theorem Name.isNameChar_of_mem (n : Name) : ∀ c ∈ n.chars, isNameChar c = true :=
  List.all_eq_true.1 n.proper

theorem Space.isBlank (s : Space) : ∀ c ∈ s.chars, Text.isBlank c = true :=
  fun c mem => Text.isBlank_of_isWhitespace (List.all_eq_true.1 s.blank c mem)

theorem Space.not_mem_delimiters (s : Space) : ∀ c ∈ s.chars, c ∉ delimiters := by
  intro c mem delimiter
  have blank := List.all_eq_true.1 s.blank c mem
  revert blank
  simp only [delimiters, List.mem_cons, List.not_mem_nil, or_false] at delimiter
  rcases delimiter with rfl | rfl | rfl | rfl | rfl | rfl | rfl | rfl <;> decide

theorem Tag.proper_name (t : Tag) : ∀ c ∈ t.name, isNameChar c = true := by
  intro c mem
  unfold Tag.name at mem
  split at mem
  · exact t.localName.isNameChar_of_mem c mem
  · rename_i p _
    rcases List.mem_append.1 mem with inSpace | rest
    · exact p.isNameChar_of_mem c inSpace
    · rcases List.mem_cons.1 rest with rfl | inLocal
      · decide
      · exact t.localName.isNameChar_of_mem c inLocal

theorem Tag.isBlank_of_spaceless {t : Tag} (spaceless : t.spaceless = true) :
    (∀ c ∈ t.name, Text.isBlank c = false) ∧
      ∀ a ∈ t.attributes, ∀ c ∈ a.name.chars, Text.isBlank c = false := by
  simpa [Tag.spaceless] using spaceless

theorem Tag.name_ne_nil (t : Tag) : t.name ≠ [] := by
  unfold Tag.name
  split
  · exact t.localName.nonempty
  · simp

/-! ## The end of a tag -/

/-- Text within which no tag ends: quotes in it are closed in it, and outside them there is
no `>`. -/
def Balanced (cs : List Char) : Prop :=
  ∀ ds, splitTag? none (cs ++ ds) = (splitTag? none ds).map fun r => (cs ++ r.1, r.2)

theorem balanced_nil : Balanced [] := by
  intro ds
  simp

theorem Balanced.append {cs ds : List Char} (first : Balanced cs) (second : Balanced ds) :
    Balanced (cs ++ ds) := by
  intro es
  rw [List.append_assoc, first, second, Option.map_map]
  simp only [Function.comp_def, List.append_assoc]

theorem balanced_singleton {c : Char} (notEnd : c ≠ '>') (unquoted : isQuote c = false) :
    Balanced [c] := by
  intro ds
  rw [List.singleton_append, splitTag?]
  simp only [if_neg notEnd, unquoted, Bool.false_eq_true, if_false, List.singleton_append]

theorem balanced_of_not_mem_delimiters {cs : List Char} (plain : ∀ c ∈ cs, c ∉ delimiters) :
    Balanced cs := by
  induction cs with
  | nil => exact balanced_nil
  | cons c cs ih =>
      obtain ⟨here, later⟩ := List.forall_mem_cons.1 plain
      have notEnd : c ≠ '>' := fun close => here (close ▸ by decide)
      exact (balanced_singleton notEnd (isQuote_of_mem_delimiters here)).append (ih later)

theorem splitTag?_quoted {q : Char} {value : List Char} (inside : q ∉ value) (ds : List Char) :
    splitTag? (some q) (value ++ q :: ds) =
      (splitTag? none ds).map fun r => (value ++ q :: r.1, r.2) := by
  induction value with
  | nil => simp [splitTag?]
  | cons c value ih =>
      obtain ⟨here, later⟩ := not_or.1 (mt List.mem_cons.2 inside)
      rw [List.cons_append, splitTag?, if_neg (Ne.symm here), ih later, Option.map_map]
      rfl

theorem balanced_quoted {q : Char} {value : List Char} (quotes : isQuote q = true)
    (inside : q ∉ value) : Balanced (q :: (value ++ [q])) := by
  intro ds
  have notEnd : q ≠ '>' := by rintro rfl; revert quotes; decide
  rw [List.cons_append, List.append_assoc, List.singleton_append, splitTag?, if_neg notEnd,
    if_pos quotes, splitTag?_quoted inside, Option.map_map]
  simp only [Function.comp_def, List.cons_append, List.append_assoc, List.nil_append]

theorem Balanced.splitTag? {text : List Char} (balanced : Balanced text) (rest : List Char) :
    splitTag? none (text ++ '>' :: rest) = some (text, rest) := by
  rw [balanced]
  simp [Xml.splitTag?]

theorem Attribute.balanced_render (a : Attribute) : Balanced a.render := by
  have plain {cs : List Char} : (∀ c ∈ cs, c ∉ delimiters) → Balanced cs :=
    balanced_of_not_mem_delimiters
  have name := plain fun c mem => Written.not_mem_delimiters (a.name.isNameChar_of_mem c mem)
  have equals : Balanced ['='] := balanced_singleton (by decide) (by decide)
  have value := balanced_quoted a.quotes a.unquoted
  have front := ((plain a.gap.not_mem_delimiters).append name).append
    (plain a.beforeEquals.not_mem_delimiters)
  exact front.append (equals.append ((plain a.afterEquals.not_mem_delimiters).append value))

theorem Tag.balanced_text (t : Tag) : Balanced t.text := by
  have name : Balanced t.name :=
    balanced_of_not_mem_delimiters fun c mem => Written.not_mem_delimiters (t.proper_name c mem)
  have attributes : Balanced (t.attributes.flatMap Attribute.render) := by
    induction t.attributes with
    | nil => exact balanced_nil
    | cons a _ ih => exact a.balanced_render.append ih
  have gap : Balanced t.gap.chars := balanced_of_not_mem_delimiters t.gap.not_mem_delimiters
  refine (name.append (attributes.append gap)).append ?_
  split
  · exact balanced_singleton (by decide) (by decide)
  · exact balanced_nil

/-! ## The name of a tag -/

/-- Behind the name of a tag there is white space or nothing. -/
theorem Tag.isBlank_of_head?_attributeText (t : Tag) :
    ∀ c ∈ t.attributeText.head?, Text.isBlank c = true := by
  intro c head
  unfold attributeText at head
  cases attributes : t.attributes with
  | nil =>
      rw [attributes] at head
      exact t.gap.isBlank c (List.mem_of_mem_head? head)
  | cons a later =>
      obtain ⟨b, gap, spelled⟩ := List.exists_cons_of_ne_nil a.apart
      have first : b = c := by simpa [attributes, Attribute.render, spelled] using head
      exact a.gap.isBlank c (spelled ▸ first ▸ List.mem_cons_self)

theorem Attribute.getLast?_render (a : Attribute) : a.render.getLast? = some a.quote :=
  List.getLast?_eq_some_iff.2
    ⟨a.gap.chars ++ a.name.chars ++ a.beforeEquals.chars ++
      '=' :: (a.afterEquals.chars ++ a.quote :: a.value), by simp [render]⟩

/-- The text of a tag ends in a slash only if the slash closes the element. -/
theorem Tag.getLast?_ne_slash (t : Tag) : (t.name ++ t.attributeText).getLast? ≠ some '/' := by
  intro last
  rw [attributeText, List.getLast?_append, List.getLast?_append, Option.or_eq_some_iff,
    Option.or_eq_some_iff] at last
  rcases last with (inGap | ⟨-, inAttributes⟩) | ⟨-, inName⟩
  · exact t.gap.not_mem_delimiters _ (List.mem_of_getLast? inGap) (by decide)
  · rcases List.eq_nil_or_concat t.attributes with none | ⟨earlier, a, attributes⟩
    · rw [none] at inAttributes
      cases inAttributes
    · have quote : a.quote = '/' := by
        simpa [attributes, a.getLast?_render] using inAttributes
      have quotes := a.quotes
      rw [quote] at quotes
      revert quotes
      decide
  · exact Written.not_mem_delimiters (t.proper_name _ (List.mem_of_getLast? inName)) (by decide)

theorem Tag.withoutSlash_text (t : Tag) :
    StartTag.withoutSlash t.text = t.name ++ t.attributeText := by
  unfold StartTag.withoutSlash text
  cases t.closed with
  | true => simp
  | false =>
      simp only [Bool.false_eq_true, if_false, List.append_nil]
      rw [if_neg t.getLast?_ne_slash]

/-- A tag as it is read. -/
def Tag.read (t : Tag) : StartTag := ⟨t.name, t.attributeText⟩

/-- **A tag is read as it is written**, if its name is one. -/
theorem Tag.ofText?_text {t : Tag} (spaceless : t.spaceless = true) :
    StartTag.ofText? t.text = if t.startsAsElement then some t.read else none := by
  have all : ∀ c ∈ t.name, (!isTagBreak c) = true := fun c mem => by
    rw [isTagBreak_of_isNameChar (t.proper_name c mem)
      ((isBlank_of_spaceless spaceless).1 c mem)]
    rfl
  have stop : ∀ c ∈ t.attributeText.head?, (!isTagBreak c) = false := fun c head => by
    simp [isTagBreak, t.isBlank_of_head?_attributeText c head]
  obtain ⟨name, rest⟩ := Text.takeWhile_dropWhile_append all _ stop
  obtain ⟨c, later, spelled⟩ := List.exists_cons_of_ne_nil t.name_ne_nil
  have starts : t.startsAsElement = startsName c := by simp [startsAsElement, spelled]
  rw [StartTag.ofText?]
  simp only [t.withoutSlash_text, name, rest]
  rw [read, starts, spelled]

theorem Tag.localName_read (t : Tag) : t.read.localName = t.localName.chars := by
  have absent : ':' ∉ t.localName.chars.reverse := fun mem =>
    t.localName.colonless (List.mem_reverse.1 mem)
  have found (rest : List Char) (stop : ∀ c ∈ rest.head?, c = ':') :
      ((t.localName.chars.reverse ++ rest).takeWhile (· ≠ ':')).reverse = t.localName.chars := by
    rw [(Text.takeWhile_dropWhile_mark absent rest stop).1, List.reverse_reverse]
  unfold StartTag.localName read name
  cases t.space? with
  | none => simpa using found [] (by simp)
  | some p => simpa using found (':' :: p.chars.reverse) (by simp)

/-! ## Attributes -/

theorem valueOf?_quoted {gap value : List Char} {q : Char}
    (blank : ∀ c ∈ gap, Text.isBlank c = true) (quotes : isQuote q = true) (inside : q ∉ value)
    (rest : List Char) :
    valueOf? (gap ++ q :: (value ++ q :: rest)) = some (value, rest) := by
  have notBlank : Text.isBlank q = false := by
    rcases isQuote_iff.1 quotes with rfl | rfl <;> decide
  have behind := (Text.takeWhile_dropWhile_append blank (q :: (value ++ q :: rest))
    (by simpa using notBlank)).2
  have closed := Text.takeWhile_dropWhile_mark inside (q :: rest) (by simp)
  rw [valueOf?, behind]
  simp only [quotes, if_true, closed.1, closed.2]

/-- **The first attribute** is the one that is written first. -/
theorem Attribute.first?_render {a : Attribute}
    (spaceless : ∀ c ∈ a.name.chars, Text.isBlank c = false) (rest : List Char) :
    Xml.Attribute.first? (a.render ++ rest) = some (⟨a.name.chars, some a.value⟩, rest) := by
  obtain ⟨c, later, spelled⟩ := List.exists_cons_of_ne_nil a.name.nonempty
  have mem : c ∈ a.name.chars := spelled ▸ List.mem_cons_self
  -- What follows the name, the equals sign, and the gap.
  let valued := a.afterEquals.chars ++ a.quote :: (a.value ++ a.quote :: rest)
  let equated := a.beforeEquals.chars ++ '=' :: valued
  have shape : a.render ++ rest = a.gap.chars ++ (a.name.chars ++ equated) := by
    simp [render, equated, valued]
  have gap : (a.gap.chars ++ (a.name.chars ++ equated)).dropWhile isTagBreak =
      a.name.chars ++ equated := by
    refine (Text.takeWhile_dropWhile_append (fun c mem => ?_) _ ?_).2
    · simp [isTagBreak, a.gap.isBlank c mem]
    · rw [spelled]
      simpa using isTagBreak_of_isNameChar (a.name.isNameChar_of_mem c mem) (spaceless c mem)
  have ends : ∀ c ∈ equated.head?, (!endsAttributeName c) = false := by
    intro c head
    cases before : a.beforeEquals.chars with
    | nil =>
        obtain rfl : '=' = c := by simpa [equated, before] using head
        decide
    | cons b gap =>
        obtain rfl : b = c := by simpa [equated, before] using head
        simp [endsAttributeName, a.beforeEquals.isBlank b (before ▸ List.mem_cons_self)]
  have proper : ∀ c ∈ a.name.chars, (!endsAttributeName c) = true := fun c mem => by
    simpa using endsAttributeName_of_isNameChar (a.name.isNameChar_of_mem c mem) (spaceless c mem)
  have name := Text.takeWhile_dropWhile_append proper equated ends
  have equals : equated.dropWhile Text.isBlank = '=' :: valued :=
    (Text.takeWhile_dropWhile_append a.beforeEquals.isBlank _ (by simp; decide)).2
  have value : valueOf? valued = some (a.value, rest) :=
    valueOf?_quoted a.afterEquals.isBlank a.quotes a.unquoted rest
  rw [shape, Xml.Attribute.first?, gap, spelled, List.cons_append]
  simp only [← List.cons_append, ← spelled, name.1, name.2, equals, value, Option.map_some]

theorem attributes_of_first?_eq_none {cs : List Char} (none : Xml.Attribute.first? cs = .none) :
    attributes cs = [] := by
  rw [attributes]
  split
  · rfl
  · rename_i found
    rw [none] at found
    cases found

theorem attributes_of_blank {gap : List Char} (blank : ∀ c ∈ gap, Text.isBlank c = true) :
    attributes gap = [] := by
  have none : Xml.Attribute.first? gap = none := by
    have all : ∀ c ∈ gap, isTagBreak c = true := fun c mem => by simp [isTagBreak, blank c mem]
    have nothing := (Text.takeWhile_dropWhile_append all [] (by simp)).2
    rw [List.append_nil] at nothing
    rw [Xml.Attribute.first?, nothing]
  exact attributes_of_first?_eq_none none

theorem attributes_of_first?_eq_some {cs rest : List Char} {a : Xml.Attribute}
    (first : Xml.Attribute.first? cs = some (a, rest)) : attributes cs = a :: attributes rest := by
  rw [attributes]
  split
  · rename_i none
    rw [first] at none
    cases none
  · rename_i found
    rw [first] at found
    cases found
    rfl

/-- **Attributes are read as they are written**, each with its value. -/
theorem attributes_attributeText {t : Tag} (spaceless : t.spaceless = true) :
    attributes t.attributeText = t.attributes.map fun a => ⟨a.name.chars, some a.value⟩ := by
  unfold Tag.attributeText
  have solid := (Tag.isBlank_of_spaceless spaceless).2
  generalize t.attributes = written at solid ⊢
  induction written with
  | nil => exact attributes_of_blank t.gap.isBlank
  | cons a later ih =>
      obtain ⟨here, others⟩ := List.forall_mem_cons.1 solid
      rw [List.flatMap_cons, List.append_assoc,
        attributes_of_first?_eq_some (Attribute.first?_render here _), ih others, List.map_cons]

theorem Tag.namespaceUri?_read {t : Tag} (spaceless : t.spaceless = true) :
    t.read.namespaceUri? = t.namespaceValue?.map unescape := by
  rw [StartTag.namespaceUri?, read, attributes_attributeText spaceless, namespaceValue?]
  induction t.attributes with
  | nil => rfl
  | cons a later ih =>
      by_cases here : a.name.chars = StartTag.namespaceAttribute
      · simp [here]
      · simpa [here] using ih

/-! ## Pieces -/

theorem after?_of_start {mark cs : List Char} (nonempty : mark ≠ []) (start : mark <+: cs) :
    after? mark cs = some (cs.drop mark.length) := by
  cases cs with
  | nil => exact absurd (List.prefix_nil.1 start) nonempty
  | cons c cs => rw [after?, if_pos (List.isPrefixOf_iff_prefix.2 start)]

theorem after?_of_not_start {mark cs : List Char} {c : Char} (notStart : ¬ mark <+: c :: cs) :
    after? mark (c :: cs) = after? mark cs := by
  rw [after?, if_neg fun start => notStart (List.isPrefixOf_iff_prefix.1 start)]

/-- A mark that ends in its only `>` is found where it was put: it cannot end earlier than it
was put and begin before that. -/
theorem after?_content_append (front : List Char) {content : List Char} (once : '>' ∉ front)
    (inside : ¬ front ++ ['>'] <:+: content) (rest : List Char) :
    after? (front ++ ['>']) (content ++ (front ++ '>' :: rest)) = some rest := by
  have split : front ++ '>' :: rest = (front ++ ['>']) ++ rest := by simp
  rw [split]
  induction content with
  | nil =>
      rw [List.nil_append, after?_of_start (by simp) (List.prefix_append _ rest), List.drop_left]
  | cons c content ih =>
      have later : ¬ front ++ ['>'] <:+: content := fun found =>
        inside (found.trans (List.suffix_cons c content).isInfix)
      rw [List.cons_append, after?_of_not_start ?_, ih later]
      intro early
      rcases List.prefix_or_prefix_of_prefix early (List.prefix_append (c :: content) _) with
        whole | ⟨part, cut⟩
      · exact inside whole.isInfix
      · rcases List.eq_nil_or_concat part with rfl | ⟨shorter, last, rfl⟩
        · rw [List.append_nil] at cut
          exact inside (cut ▸ List.infix_rfl)
        · -- The mark goes on behind the content, so a part of it, with the end, starts the mark.
          rw [List.concat_eq_append, ← List.append_assoc] at cut
          obtain ⟨shown, ending⟩ := List.append_inj' cut rfl
          obtain rfl : last = '>' := by simpa using ending
          have early' : (c :: content) ++ (shorter ++ ['>']) <+:
              (c :: content) ++ (front ++ (['>'] ++ rest)) := by
            rw [← List.append_assoc, shown]
            simpa using early
          have again := (List.prefix_append_right_inj _).1 early'
          have short : (shorter ++ ['>']).length ≤ front.length := by
            rw [← shown]
            simp
          have inFront := List.prefix_of_prefix_length_le again (List.prefix_append front _) short
          exact once (inFront.subset (by simp))

/-- The pieces of markup that a piece of an opening is read as. -/
def Piece.markups : Piece → List Markup
  | .text _ _ => []
  | .instruction _ _ => [.instruction]
  | .comment _ _ => [.comment]
  | .endTag _ _ => [.endTag]
  | .tag t => [.startTag t.text]

theorem Tag.markups_render_append (t : Tag) (rest : List Char) :
    markups (t.render ++ rest) = .startTag t.text :: markups rest := by
  obtain ⟨c, later, spelled⟩ := List.exists_cons_of_ne_nil t.name_ne_nil
  have proper := Written.not_mem_delimiters (t.proper_name c (spelled ▸ List.mem_cons_self))
  have other : c ≠ '?' ∧ c ≠ '!' ∧ c ≠ '/' := by
    refine ⟨?_, ?_, ?_⟩ <;> rintro rfl <;> exact proper (by decide)
  have starts : ∃ more, t.text = c :: more := ⟨_, by rw [text, spelled]; rfl⟩
  obtain ⟨more, text⟩ := starts
  have whole := t.balanced_text.splitTag? rest
  have shape : t.render ++ rest = '<' :: (t.text ++ '>' :: rest) := by simp [render]
  rw [shape]
  refine markups_of_first?_eq_some ?_
  rw [text] at whole ⊢
  rw [List.cons_append, Markup.first?_startTag other, ← List.cons_append, whole, Option.map_some]

/-- A piece that runs from what opens it to a mark is found, if the mark stands at its end
only. -/
theorem markups_construct {m : Markup} (opening front : List Char) {content : List Char}
    (opens : ∀ cs, Markup.first? (opening ++ cs) =
      (after? (front ++ ['>']) cs).map fun rest => (m, rest))
    (once : '>' ∉ front) (inside : ¬ front ++ ['>'] <:+: content) (rest : List Char) :
    markups ('<' :: opening ++ content ++ (front ++ ['>']) ++ rest) = m :: markups rest := by
  have found : Markup.first? (opening ++ (content ++ (front ++ '>' :: rest))) = some (m, rest) := by
    rw [opens, after?_content_append front once inside, Option.map_some]
  rw [← markups_of_first?_eq_some found]
  simp

/-- **A piece is read as what it is**, whatever follows. -/
theorem Piece.markups_render_append (p : Piece) (rest : List Char) :
    Xml.markups (p.render ++ rest) = p.markups ++ Xml.markups rest := by
  cases p with
  | text cs plain => exact markups_text_append plain rest
  | instruction cs inside =>
      exact markups_construct ['?'] ['?'] (fun _ => rfl) (by decide) inside rest
  | comment cs inside =>
      exact markups_construct ['!', '-', '-'] ['-', '-'] (fun _ => rfl) (by decide) inside rest
  | endTag cs inside =>
      have absent : ¬ [] ++ ['>'] <:+: cs := fun found => inside (found.subset (by simp))
      exact markups_construct ['/'] [] (fun _ => rfl) (by decide) absent rest
  | tag t => exact t.markups_render_append rest

/-- Pieces are read one by one as they are written, whatever follows. -/
theorem Piece.markups_flatMap_render_append (ps : List Piece) (rest : List Char) :
    Xml.markups (ps.flatMap Piece.render ++ rest) =
      ps.flatMap Piece.markups ++ Xml.markups rest := by
  induction ps with
  | nil => rfl
  | cons p later ih =>
      rw [List.flatMap_cons, List.flatMap_cons, List.append_assoc, List.append_assoc,
        p.markups_render_append, ih]

/-- **An opening is read piece by piece** as it is written, whatever follows. -/
theorem Opening.markups_text_append (o : Opening) (rest : List Char) :
    markups (o.text ++ rest) =
      o.pieces.flatMap Piece.markups ++ .startTag o.tag.text :: markups rest := by
  rw [text, List.append_assoc, Piece.markups_flatMap_render_append, o.tag.markups_render_append]

/-- What follows an opening that is visible as a whole takes nothing from it. -/
theorem Opening.exists_markups_document {o : Opening} (visible : o.Visible) (tail : Bytes) :
    ∃ later, markups (decode (o.document tail)) =
      o.pieces.flatMap Piece.markups ++ .startTag o.tag.text :: later := by
  have some : o.text ≠ [] := by simp [text, Tag.render]
  have fits := visible.fits
  rw [Text.utf8_ofList] at fits
  rw [document, Text.utf8_ofList, markups_decode_encode_append (Or.inl some) fits,
    List.takeWhile_append_of_pos (List.all_eq_true.1 visible.plain), o.markups_text_append]
  exact ⟨_, rfl⟩

end MediaSniff.Xml.Written
