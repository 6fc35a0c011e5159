/-
# MediaSniff.Proofs.Xml.Reference — references are put in once

A character can be written as itself, by its predefined name or by its code, and a text is
written character by character (`Writing`). However it is written, putting the characters in
gives it back, as long as no ampersand is written as itself. What is put in is not looked at
again, so an escaped reference stays one.

An ampersand that stands as itself refers to something if what stands between it and the next
semicolon names a character (`Names`). Otherwise it is kept, and reading goes on right behind it,
so the references after it are still put in, also those in front of that semicolon.

The names that are known are the five that XML predefines and all codes of characters, in either
base and with any number of zeros in front. Numerals are read with a sign, so a plus sign in
front of a code is let through.
-/
import MediaSniff.Proofs.Text.Numeral
import MediaSniff.Xml.Reference

set_option autoImplicit false

namespace MediaSniff.Xml

open Text (IsNumeral IsSignedNumeral)

/-! ## Names of characters -/

/-- The predefined names. -/
def predefinedNames : List (List Char × Char) :=
  [(['a', 'm', 'p'], '&'), (['l', 't'], '<'), (['g', 't'], '>'), (['q', 'u', 'o', 't'], '"'),
    (['a', 'p', 'o', 's'], '\x27')]

/-- What stands between an ampersand and a semicolon names a character. -/
inductive Names : List Char → Char → Prop
  | predefined {name : List Char} {c : Char} (listed : (name, c) ∈ predefinedNames) : Names name c
  | decimal {numeral : List Char} {c : Char} (code : IsSignedNumeral 10 numeral c.toNat) :
      Names ('#' :: numeral) c
  | hexadecimal {numeral : List Char} {c : Char} (code : IsSignedNumeral 16 numeral c.toNat) :
      Names ('#' :: 'x' :: numeral) c

theorem charOfCode?_eq_some_iff {code : Nat} {c : Char} :
    charOfCode? code = some c ↔ c.toNat = code := by
  rw [charOfCode?]
  constructor
  · intro read
    split at read
    · rename_i valid
      cases read
      rw [Char.ofNat, dif_pos valid]
      rfl
    · cases read
  · rintro rfl
    have valid : c.toNat.isValidChar := c.valid
    rw [if_pos valid, Char.ofNat_toNat]

theorem toNat_lt_two_pow (c : Char) : c.toNat < 2 ^ 32 := c.val.toNat_lt

theorem unsigned32?_bind_charOfCode? {base : Nat} (positive : 0 < base) (small : base ≤ 16)
    {numeral : List Char} {c : Char} :
    (Text.unsigned32? base numeral).bind charOfCode? = some c ↔
      IsSignedNumeral base numeral c.toNat := by
  simp only [Option.bind_eq_some_iff, charOfCode?_eq_some_iff, Text.unsigned32?,
    Text.signedNatural?_eq_some_iff positive small (Nat.two_pow_pos 32)]
  constructor
  · rintro ⟨_, ⟨numeral, -⟩, rfl⟩
    exact numeral
  · intro numeral
    exact ⟨_, ⟨numeral, toNat_lt_two_pow c⟩, rfl⟩

/-- **The names that are known.** -/
theorem namedChar?_eq_some_iff {name : List Char} {c : Char} :
    namedChar? name = some c ↔ Names name c := by
  constructor
  · intro known
    unfold namedChar? at known
    split at known
    case h_6 => exact .hexadecimal ((unsigned32?_bind_charOfCode? (by decide) (by decide)).1 known)
    case h_7 => exact .decimal ((unsigned32?_bind_charOfCode? (by decide) (by decide)).1 known)
    case h_8 => cases known
    all_goals
      cases known
      exact .predefined (by decide)
  · rintro (listed | code | code)
    · simp only [predefinedNames, List.mem_cons, Prod.mk.injEq, List.not_mem_nil, or_false] at listed
      rcases listed with ⟨rfl, rfl⟩ | ⟨rfl, rfl⟩ | ⟨rfl, rfl⟩ | ⟨rfl, rfl⟩ | ⟨rfl, rfl⟩ <;> rfl
    · rename_i numeral
      -- A decimal numeral is not taken for a hexadecimal one.
      have decimal : ∀ digits, numeral ≠ 'x' :: digits := by
        rintro digits rfl
        exact code.not_mem (by decide) (by decide) (by decide) List.mem_cons_self
      rw [namedChar?]
      · exact (unsigned32?_bind_charOfCode? (by decide) (by decide)).2 code
      · exact decimal
    · exact (unsigned32?_bind_charOfCode? (by decide) (by decide)).2 code

theorem Names.not_mem_semicolon {name : List Char} {c : Char} (named : Names name c) :
    ';' ∉ name := by
  rcases named with listed | code | code
  · have none : ∀ entry ∈ predefinedNames, ';' ∉ entry.1 := by decide
    exact none _ listed
  · have digits := code.not_mem (by decide) (by decide : Text.digit? 16 ';' = none) (by decide)
    simpa using digits
  · have digits := code.not_mem (by decide) (by decide : Text.digit? 16 ';' = none) (by decide)
    simpa using digits

/-! ## Reading on -/

theorem unescape_cons_of_ne {c : Char} (other : c ≠ '&') (cs : List Char) :
    unescape (c :: cs) = c :: unescape cs := by
  rw [unescape, if_neg other]

/-- Text without ampersands is passed over. -/
theorem unescape_append_of_not_mem {plain : List Char} (none : '&' ∉ plain) (rest : List Char) :
    unescape (plain ++ rest) = plain ++ unescape rest := by
  induction plain with
  | nil => rfl
  | cons c plain ih =>
      obtain ⟨other, later⟩ := List.ne_and_not_mem_of_not_mem_cons none
      rw [List.cons_append, unescape_cons_of_ne (Ne.symm other), ih later, List.cons_append]

/-- What is referred to stands between the ampersand and the next semicolon. -/
theorem reference?_append {name : List Char} (inside : ';' ∉ name) (rest : List Char) :
    reference? (name ++ ';' :: rest) = (namedChar? name).map fun c => (c, rest) := by
  obtain ⟨taken, behind⟩ := Text.takeWhile_dropWhile_mark inside (';' :: rest) (by simp)
  rw [reference?, behind, taken]

theorem reference?_of_not_mem {cs : List Char} (none : ';' ∉ cs) : reference? cs = .none := by
  have nothing := (Text.takeWhile_dropWhile_mark none [] nofun).2
  rw [List.append_nil] at nothing
  rw [reference?, nothing]

theorem unescape_of_reference?_eq_some {cs rest : List Char} {c : Char}
    (found : reference? cs = some (c, rest)) : unescape ('&' :: cs) = c :: unescape rest := by
  rw [unescape, if_pos rfl]
  split
  · rename_i none
    cases found.symm.trans none
  · rename_i found'
    cases found.symm.trans found'
    rfl

theorem unescape_of_reference?_eq_none {cs : List Char} (none : reference? cs = .none) :
    unescape ('&' :: cs) = '&' :: unescape cs := by
  rw [unescape, if_pos rfl]
  split
  · rfl
  · rename_i found
    cases none.symm.trans found

/-- **A reference is put in**, and what it stands for is not looked at again. -/
theorem unescape_of_names {name : List Char} {c : Char} (named : Names name c) (rest : List Char) :
    unescape ('&' :: (name ++ ';' :: rest)) = c :: unescape rest := by
  have found : reference? (name ++ ';' :: rest) = some (c, rest) := by
    rw [reference?_append named.not_mem_semicolon, namedChar?_eq_some_iff.2 named, Option.map_some]
  exact unescape_of_reference?_eq_some found

/-- What stands between an ampersand and the next semicolon, if there is one, names nothing. -/
def RefersToNothing (cs : List Char) : Prop :=
  ∀ name rest c, cs = name ++ ';' :: rest → ';' ∉ name → ¬ Names name c

theorem reference?_eq_none_iff {cs : List Char} : reference? cs = none ↔ RefersToNothing cs := by
  constructor
  · rintro unread name rest c rfl inside named
    rw [reference?_append inside, namedChar?_eq_some_iff.2 named] at unread
    cases unread
  · intro nothing
    by_cases mem : ';' ∈ cs
    · obtain ⟨name, rest, whole, inside⟩ := List.eq_append_cons_of_mem mem
      rw [whole, reference?_append inside, Option.map_eq_none_iff,
        Option.eq_none_iff_forall_ne_some]
      intro c known
      exact nothing name rest c whole inside (namedChar?_eq_some_iff.1 known)
    · exact reference?_of_not_mem mem

theorem unescape_of_refersToNothing {cs : List Char} (nothing : RefersToNothing cs) :
    unescape ('&' :: cs) = '&' :: unescape cs :=
  unescape_of_reference?_eq_none (reference?_eq_none_iff.2 nothing)

/-! ## Ways of writing -/

/-- A way of writing a character: as itself, unless it is an ampersand, by its predefined name,
or by its code in either base. -/
inductive Spells (c : Char) : List Char → Prop
  | itself (other : c ≠ '&') : Spells c [c]
  | predefined {name : List Char} (listed : (name, c) ∈ predefinedNames) :
      Spells c ('&' :: (name ++ [';']))
  | decimal {digits : List Char} (code : IsNumeral 10 digits c.toNat) :
      Spells c ('&' :: '#' :: (digits ++ [';']))
  | hexadecimal {digits : List Char} (code : IsNumeral 16 digits c.toNat) :
      Spells c ('&' :: '#' :: 'x' :: (digits ++ [';']))

/-- A way of writing a text, character by character. -/
inductive Writing : (text written : List Char) → Prop
  | nil : Writing [] []
  | cons {c : Char} {text spelled written : List Char} (first : Spells c spelled)
      (later : Writing text written) : Writing (c :: text) (spelled ++ written)

/-- A character is read as it is written, whatever follows. -/
theorem unescape_of_spells {c : Char} {spelled : List Char} (spells : Spells c spelled)
    (rest : List Char) : unescape (spelled ++ rest) = c :: unescape rest := by
  rcases spells with other | listed | code | code
  · exact unescape_cons_of_ne other rest
  · simpa using unescape_of_names (.predefined listed) rest
  · simpa using unescape_of_names (.decimal (.inl code)) rest
  · simpa using unescape_of_names (.hexadecimal (.inl code)) rest

theorem unescape_of_writing {text written : List Char} (writing : Writing text written) :
    unescape written = text := by
  induction writing with
  | nil => rw [unescape]
  | cons first _ ih => rw [unescape_of_spells first, ih]

/-- **Putting in undoes every way of writing.** However a text is written, it is read back. A
reference is put in once, whatever follows: what an escaped ampersand stands in front of is left
as it is. An ampersand that refers to nothing is kept, and what follows it is read as it would be
without it. -/
theorem unescape_undoes_writing :
    (∀ text written, Writing text written → unescape written = text) ∧
    (∀ name c, Names name c → ∀ rest, unescape ('&' :: (name ++ ';' :: rest)) = c :: unescape rest) ∧
    (∀ plain, '&' ∉ plain → ∀ rest,
      unescape (['&', 'a', 'm', 'p', ';'] ++ plain ++ rest) = '&' :: (plain ++ unescape rest)) ∧
    ∀ cs, RefersToNothing cs → unescape ('&' :: cs) = '&' :: unescape cs := by
  refine ⟨fun _ _ => unescape_of_writing, fun _ _ => unescape_of_names, fun plain none rest => ?_,
    fun _ => unescape_of_refersToNothing⟩
  have listed : (['a', 'm', 'p'], '&') ∈ predefinedNames := by decide
  have ampersand : Spells '&' ['&', 'a', 'm', 'p', ';'] := .predefined listed
  rw [List.append_assoc, unescape_of_spells ampersand, unescape_append_of_not_mem none]

/-- An escaped reference, a code with zeros in front, a semicolon and an ampersand that refers to
nothing, with a reference between it and the next semicolon. -/
theorem scribble_unescaped :
    Writing ['&', 'l', 't', ';', 'é'] "&amp;lt;&#x00e9;".toList ∧
      unescape "&amp;lt;&#x00e9;".toList = ['&', 'l', 't', ';', 'é'] ∧
      RefersToNothing "R &lt;".toList ∧ unescape "&R &lt;".toList = ['&', 'R', ' ', '<'] := by
  obtain ⟨undone, put, -, kept⟩ := unescape_undoes_writing
  have code : IsNumeral 16 ['0', '0', 'e', '9'] ('é').toNat :=
    ((Text.natural?_eq_some_iff (by decide) (by decide) (by decide : 0 < 256)).1 (by decide)).1
  have listed : (['a', 'm', 'p'], '&') ∈ predefinedNames := by decide
  have writing : Writing ['&', 'l', 't', ';', 'é'] "&amp;lt;&#x00e9;".toList :=
    .cons (.predefined listed) <| .cons (.itself (by decide)) <|
      .cons (.itself (by decide)) <| .cons (.itself (by decide)) <| .cons (.hexadecimal code) .nil
  have nothing : RefersToNothing "R &lt;".toList := reference?_eq_none_iff.1 (by decide)
  refine ⟨writing, undone _ _ writing, nothing, ?_⟩
  have behind : "R &lt;".toList = ['R', ' '] ++ '&' :: (['l', 't'] ++ ';' :: []) := by decide
  calc unescape "&R &lt;".toList
      = '&' :: unescape "R &lt;".toList := kept _ nothing
    _ = ['&', 'R', ' '] ++ unescape ('&' :: (['l', 't'] ++ ';' :: [])) := by
        rw [behind, unescape_append_of_not_mem (by decide)]
        rfl
    _ = ['&', 'R', ' '] ++ '<' :: unescape [] := by
        rw [put ['l', 't'] '<' (.predefined (by decide))]
    _ = ['&', 'R', ' ', '<'] := by
        rw [unescape]
        rfl

end MediaSniff.Xml
