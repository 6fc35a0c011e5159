/-
# MediaSniff.Proofs.Magic.Escape — string values are cut into longest tokens

A string value is made of tokens: bytes other than a backslash, which stand for themselves, and
escapes (`Token`). Only numeric escapes come in several lengths. Where a token begins, the text is
taken to go on with the longest one that there is (`Cut`), and it is a value exactly if it can be
cut into tokens in this way from one end to the other.

Reading a token takes digits as long as they fit, and no other run of digits that the text begins
with is longer (`digitRun_longest`). So the token read is the longest (`token?_longest`), and one
is read wherever there is one (`exists_token?`). Since a token has one value, the text has no other
reading (`parseString_iff_cut`).
-/
import MediaSniff.Magic.Value
import MediaSniff.Proofs.Outcome
import MediaSniff.Proofs.Text.Numeral
import MediaSniff.Proofs.Text.Utf8

set_option autoImplicit false

namespace MediaSniff.Magic

open Text (IsDigit IsNumeral GoesOn)

/-! ## Tokens -/

/-- The character whose code is a byte. -/
def charOf (b : UInt8) : Char := Char.ofNat b.toNat

/-- The letters and marks that are escapes by themselves, and the bytes they stand for. -/
def marks : List (Char × UInt8) :=
  [('a', 0x07), ('b', 0x08), ('f', 0x0C), ('n', 0x0A), ('r', 0x0D), ('t', 0x09), ('v', 0x0B),
    ('\\', 0x5C), ('\x27', 0x27), ('"', 0x22), (' ', 0x20)]

/-- What stands behind the backslash of an escape, and the byte that the escape stands for. -/
inductive Escape : (written : Bytes) → UInt8 → Prop
  | mark {m v : UInt8} (listed : marks.lookup (charOf m) = some v) : Escape [m] v
  | octal {digits : Bytes} {n : Nat} (count : digits.length ≤ 3)
      (numeral : IsNumeral 8 (digits.map charOf) n) (byte : n ≤ 255) : Escape digits (UInt8.ofNat n)
  | hexadecimal {digits : Bytes} {n : Nat} (count : digits.length ≤ 2)
      (numeral : IsNumeral 16 (digits.map charOf) n) :
      Escape ('x'.toUInt8 :: digits) (UInt8.ofNat n)

/-- A piece of a string value, and the byte that it stands for. -/
inductive Token : (written : Bytes) → UInt8 → Prop
  | plain {b : UInt8} (other : b ≠ backslash) : Token [b] b
  | escape {written : Bytes} {v : UInt8} (escape : Escape written v) :
      Token (backslash :: written) v

/-- A text begins with no longer token. -/
def LongestToken (text written : Bytes) : Prop :=
  ∀ written' v', Token written' v' → written' <+: text → written'.length ≤ written.length

/-- A text is cut from left to right into tokens, each of them the longest that begins there, and
stands for their values. -/
inductive Cut : (text value : Bytes) → Prop
  | nil : Cut [] []
  | token {written rest value : Bytes} {v : UInt8} (token : Token written v)
      (longest : LongestToken (written ++ rest) written) (later : Cut rest value) :
      Cut (written ++ rest) (v :: value)

/-! ## Runs of digits -/

/-- A run of at most `count` digits behind a number already read makes up a byte with it. -/
structure Continues (base count read : Nat) (run : Bytes) (n : Nat) : Prop where
  length : run.length ≤ count
  number : GoesOn base read (run.map charOf) n
  byte : n ≤ 255

section Runs

variable {base count read n : Nat} {text run rest : Bytes}

theorem continues_nil (byte : read ≤ 255) : Continues base count read [] read :=
  ⟨Nat.zero_le _, Text.goesOn_nil.2 rfl, byte⟩

theorem continues_cons {b : UInt8} :
    Continues base (count + 1) read (b :: run) n ↔
      ∃ d, IsDigit base (charOf b) d ∧ Continues base count (read * base + d) run n := by
  constructor
  · rintro ⟨length, number, byte⟩
    obtain ⟨d, digit, number⟩ := Text.goesOn_cons.1 number
    exact ⟨d, digit, Nat.le_of_succ_le_succ length, number, byte⟩
  · rintro ⟨d, digit, length, number, byte⟩
    exact ⟨Nat.succ_le_succ length, Text.goesOn_cons.2 ⟨d, digit, number⟩, byte⟩

/-- A text begins with no longer run of digits that would do. -/
def LongestRun (base count read : Nat) (text run : Bytes) : Prop :=
  ∀ run' n', Continues base count read run' n' → run' <+: text → run'.length ≤ run.length

/-- A run that a text begins with is empty, or it begins with a digit. -/
theorem Continues.front {b : UInt8} (small : base ≤ 16)
    (continues : Continues base (count + 1) read run n) (front : run <+: b :: text) :
    run = [] ∨ ∃ run' d, run = b :: run' ∧ run' <+: text ∧ byteDigit? base b = some d ∧
      Continues base count (read * base + d) run' n := by
  cases run with
  | nil => exact Or.inl rfl
  | cons b' run' =>
      obtain ⟨rfl, front'⟩ := List.cons_prefix_cons.1 front
      obtain ⟨d, digit, continues⟩ := continues_cons.1 continues
      exact Or.inr ⟨run', d, rfl, front', (Text.digit?_eq_some_iff small).2 digit, continues⟩

/-- **Digits are taken as long as they fit.** -/
theorem digitRun_longest (positive : 0 < base) (small : base ≤ 16) (byte : read ≤ 255)
    (done : digitRun base count read text = (n, rest)) :
    ∃ run, text = run ++ rest ∧ Continues base count read run n ∧
      LongestRun base count read text run := by
  fun_induction digitRun base count read text with
  | case1 read text =>
      cases done
      exact ⟨[], rfl, continues_nil byte, fun _ _ other _ => other.length⟩
  | case2 read count =>
      cases done
      refine ⟨[], rfl, continues_nil byte, fun run' n' _ front => ?_⟩
      rw [List.prefix_nil.1 front]
  | case3 read count b text none =>
      cases done
      refine ⟨[], rfl, continues_nil byte, fun run' n' other front => ?_⟩
      rcases other.front small front with rfl | ⟨_, _, -, -, digit, -⟩
      · exact Nat.le_refl _
      · cases none.symm.trans digit
  | case4 read count b text d digit fits ih =>
      obtain ⟨run, rfl, continues, longest⟩ := ih fits done
      have here : IsDigit base (charOf b) d := (Text.digit?_eq_some_iff small).1 digit
      refine ⟨b :: run, rfl, continues_cons.2 ⟨d, here, continues⟩, fun run' n' other front => ?_⟩
      rcases other.front small front with rfl | ⟨more, d', rfl, front, digit', other⟩
      · exact Nat.zero_le _
      · cases digit.symm.trans digit'
        exact Nat.succ_le_succ (longest more n' other front)
  | case5 read count b text d digit full =>
      cases done
      refine ⟨[], rfl, continues_nil byte, fun run' n' other front => ?_⟩
      rcases other.front small front with rfl | ⟨_, d', -, -, digit', other⟩
      · exact Nat.le_refl _
      · cases digit.symm.trans digit'
        exact absurd ((other.number.le positive).trans other.byte) full

end Runs

/-! ## Escapes -/

theorem simpleEscape?_eq_lookup (m : UInt8) : simpleEscape? m = marks.lookup (charOf m) := by
  have checked : ∀ k < 256,
      simpleEscape? (UInt8.ofNat k) = marks.lookup (charOf (UInt8.ofNat k)) := by
    decide +kernel
  simpa using checked m.toNat m.toNat_lt

/-- The letters and marks are no digits, and none is the `x` of a hexadecimal escape. -/
theorem not_isDigit_of_mark {m v : UInt8} (listed : marks.lookup (charOf m) = some v) :
    m ≠ 'x'.toUInt8 ∧ ∀ d, ¬ IsDigit 8 (charOf m) d := by
  have apart : ∀ p ∈ marks, p.1 ≠ 'x' ∧ Text.digit? 8 p.1 = none := by decide
  obtain ⟨before, after, split, -⟩ := List.lookup_eq_some_iff.1 listed
  obtain ⟨other, none⟩ := apart (charOf m, v) (by simp [split])
  constructor
  · rintro rfl
    exact other rfl
  · intro d digit
    rw [(Text.digit?_eq_some_iff (by decide)).2 digit] at none
    cases none

theorem not_isDigit_x (d : Nat) : ¬ IsDigit 8 (charOf 'x'.toUInt8) d := by
  rw [← Text.digit?_eq_some_iff (by decide)]
  have none : Text.digit? 8 (charOf 'x'.toUInt8) = none := by decide
  rw [none]
  nofun

/-- The value of two hexadecimal digits is a byte. -/
theorem byte_of_hexadecimal {digits : Bytes} {n : Nat} (count : digits.length ≤ 2)
    (numeral : IsNumeral 16 (digits.map charOf) n) : n ≤ 255 := by
  have less : n < 16 ^ digits.length := by simpa using numeral.lt_pow (by decide)
  have most : 16 ^ digits.length ≤ 16 ^ 2 := Nat.pow_le_pow_right (by decide) count
  omega

section Kinds

variable {m b v : UInt8} {more run : Bytes}

theorem not_escape_nil : ¬ Escape [] v := by
  intro escape
  cases escape with
  | octal count numeral byte => exact numeral.1 rfl

/-- The letter or mark decides that nothing belongs to the escape behind it. -/
theorem escape_mark_iff {u : UInt8} (listed : marks.lookup (charOf m) = some u) :
    Escape (m :: more) v ↔ more = [] ∧ v = u := by
  obtain ⟨other, none⟩ := not_isDigit_of_mark listed
  constructor
  · intro escape
    cases escape with
    | mark listed' => exact ⟨rfl, Option.some.inj (listed'.symm.trans listed)⟩
    | octal count numeral byte =>
        obtain ⟨d, digit, -⟩ := Text.isNumeral_cons.1 numeral
        exact absurd digit (none d)
    | hexadecimal count numeral => exact absurd rfl other
  · rintro ⟨rfl, rfl⟩
    exact .mark listed

/-- An octal digit decides that further ones belong to the escape. -/
theorem escape_octal_iff {d : Nat} (digit : IsDigit 8 (charOf m) d) :
    Escape (m :: more) v ↔ ∃ n, Continues 8 2 d more n ∧ v = UInt8.ofNat n := by
  constructor
  · intro escape
    cases escape with
    | mark listed => exact absurd digit ((not_isDigit_of_mark listed).2 d)
    | octal count numeral byte =>
        obtain ⟨d', digit', number⟩ := Text.isNumeral_cons.1 numeral
        obtain rfl := digit.value_unique (by decide) digit'
        exact ⟨_, ⟨Nat.le_of_succ_le_succ count, number, byte⟩, rfl⟩
    | hexadecimal count numeral => exact absurd digit (not_isDigit_x d)
  · rintro ⟨n, ⟨count, number, byte⟩, rfl⟩
    exact .octal (Nat.succ_le_succ count) (Text.isNumeral_cons.2 ⟨d, digit, number⟩) byte

/-- An `x` decides that hexadecimal digits belong to the escape. -/
theorem escape_hexadecimal_iff :
    Escape ('x'.toUInt8 :: more) v ↔
      ∃ b run d n, more = b :: run ∧ IsDigit 16 (charOf b) d ∧ Continues 16 1 d run n ∧
        v = UInt8.ofNat n := by
  constructor
  · intro escape
    cases escape with
    | mark listed => exact absurd rfl (not_isDigit_of_mark listed).1
    | octal count numeral byte =>
        obtain ⟨d, digit, -⟩ := Text.isNumeral_cons.1 numeral
        exact absurd digit (not_isDigit_x d)
    | hexadecimal count numeral =>
        have byte := byte_of_hexadecimal count numeral
        obtain ⟨b, run, rfl⟩ := List.exists_cons_of_ne_nil
          (fun blank => numeral.1 (List.map_eq_nil_iff.2 blank))
        obtain ⟨d, digit, number⟩ := Text.isNumeral_cons.1 numeral
        exact ⟨b, run, d, _, rfl, digit, ⟨Nat.le_of_succ_le_succ count, number, byte⟩, rfl⟩
  · rintro ⟨b, run, d, n, rfl, digit, ⟨count, number, -⟩, rfl⟩
    exact .hexadecimal (Nat.succ_le_succ count) (Text.isNumeral_cons.2 ⟨d, digit, number⟩)

/-- Nothing else begins an escape. -/
theorem not_escape_of_other (unlisted : marks.lookup (charOf m) = none)
    (none : ∀ d, ¬ IsDigit 8 (charOf m) d) (other : m ≠ 'x'.toUInt8) : ¬ Escape (m :: more) v := by
  intro escape
  cases escape with
  | mark listed => cases unlisted.symm.trans listed
  | octal count numeral byte =>
      obtain ⟨d, digit, -⟩ := Text.isNumeral_cons.1 numeral
      exact none d digit
  | hexadecimal count numeral => exact other rfl

/-- An escape has one value. -/
theorem Escape.value_unique {written : Bytes} {v' : UInt8} (escape : Escape written v)
    (escape' : Escape written v') : v = v' := by
  cases escape with
  | mark listed => exact ((escape_mark_iff listed).1 escape').2.symm
  | octal count numeral byte =>
      obtain ⟨m, more, rfl⟩ := List.exists_cons_of_ne_nil
        (fun blank => numeral.1 (List.map_eq_nil_iff.2 blank))
      obtain ⟨d, digit, number⟩ := Text.isNumeral_cons.1 numeral
      obtain ⟨n', continues, rfl⟩ := (escape_octal_iff digit).1 escape'
      rw [number.value_unique (by decide) continues.number]
  | hexadecimal count numeral =>
      obtain ⟨b, run, d, n', rfl, digit, continues, rfl⟩ := escape_hexadecimal_iff.1 escape'
      obtain ⟨d', digit', number⟩ := Text.isNumeral_cons.1 numeral
      obtain rfl := digit.value_unique (by decide) digit'
      rw [number.value_unique (by decide) continues.number]

end Kinds

/-! ## Reading a token -/

section ReadToken

variable {text written rest : Bytes} {b m v v' : UInt8}

theorem Token.front_plain (other : b ≠ backslash) (token : Token written v)
    (front : written <+: b :: text) : written = [b] := by
  cases token with
  | plain other =>
      obtain ⟨rfl, -⟩ := List.cons_prefix_cons.1 front
      rfl
  | escape escape =>
      obtain ⟨rfl, -⟩ := List.cons_prefix_cons.1 front
      exact absurd rfl other

theorem Token.front_escape (token : Token written v) (front : written <+: backslash :: text) :
    ∃ m more rest, text = m :: rest ∧ written = backslash :: m :: more ∧ more <+: rest ∧
      Escape (m :: more) v := by
  cases token with
  | plain other =>
      obtain ⟨rfl, -⟩ := List.cons_prefix_cons.1 front
      exact absurd rfl other
  | @escape written v escape =>
      obtain ⟨-, front'⟩ := List.cons_prefix_cons.1 front
      cases written with
      | nil => exact absurd escape not_escape_nil
      | cons m more =>
          obtain ⟨rest, rfl⟩ := front'
          exact ⟨m, more, more ++ rest, rfl, rfl, List.prefix_append _ _, escape⟩

theorem Token.ne_nil (token : Token written v) : written ≠ [] := by
  cases token <;> exact List.cons_ne_nil _ _

/-- A token has one value. -/
theorem Token.value_unique (token : Token written v) (token' : Token written v') : v = v' := by
  cases token with
  | plain other =>
      cases token' with
      | plain _ => rfl
      | escape _ => exact absurd rfl other
  | escape escape =>
      cases token' with
      | plain other => exact absurd rfl other
      | escape escape' => exact escape.value_unique escape'

/-- A text is the longest token that it begins with, which has this value, and then this rest. -/
def Splits (text : Bytes) (v : UInt8) (rest : Bytes) : Prop :=
  ∃ written, text = written ++ rest ∧ Token written v ∧ LongestToken text written

theorem splits_plain (other : b ≠ backslash) : Splits (b :: text) b text := by
  refine ⟨[b], rfl, .plain other, fun w' v' token front => ?_⟩
  rw [token.front_plain other front]

theorem splits_mark (listed : marks.lookup (charOf m) = some v) :
    Splits (backslash :: m :: text) v text := by
  refine ⟨[backslash, m], rfl, .escape (.mark listed), fun w' v' token front => ?_⟩
  obtain ⟨m', more, _, same, rfl, -, escape⟩ := token.front_escape front
  cases same
  rw [((escape_mark_iff listed).1 escape).1]

theorem splits_octal {d n : Nat} (digit : IsDigit 8 (charOf m) d)
    (taken : digitRun 8 2 d text = (n, rest)) :
    Splits (backslash :: m :: text) (UInt8.ofNat n) rest := by
  have byte : d ≤ 255 := by
    have := digit.1
    omega
  obtain ⟨run, rfl, continues, longest⟩ := digitRun_longest (by decide) (by decide) byte taken
  refine ⟨backslash :: m :: run, rfl, .escape ((escape_octal_iff digit).2 ⟨_, continues, rfl⟩),
    fun w' v' token front => ?_⟩
  obtain ⟨m', more, _, same, rfl, front, escape⟩ := token.front_escape front
  cases same
  obtain ⟨n', continues', -⟩ := (escape_octal_iff digit).1 escape
  exact Nat.add_le_add_right (longest more n' continues' front) 2

theorem splits_hexadecimal {d n : Nat} (digit : IsDigit 16 (charOf b) d)
    (taken : digitRun 16 1 d text = (n, rest)) :
    Splits (backslash :: 'x'.toUInt8 :: b :: text) (UInt8.ofNat n) rest := by
  have byte : d ≤ 255 := by
    have := digit.1
    omega
  obtain ⟨run, rfl, continues, longest⟩ := digitRun_longest (by decide) (by decide) byte taken
  refine ⟨backslash :: 'x'.toUInt8 :: b :: run, rfl,
    .escape (escape_hexadecimal_iff.2 ⟨b, run, d, n, rfl, digit, continues, rfl⟩),
    fun w' v' token front => ?_⟩
  obtain ⟨m', more, _, same, rfl, front, escape⟩ := token.front_escape front
  cases same
  obtain ⟨b', run', d', n', rfl, digit', continues', -⟩ := escape_hexadecimal_iff.1 escape
  obtain ⟨rfl, front'⟩ := List.cons_prefix_cons.1 front
  obtain rfl := digit.value_unique (by decide) digit'
  exact Nat.add_le_add_right (longest run' n' continues' front') 3

/-- **The token that is read is the longest.** -/
theorem token?_longest (read : token? text = some (v, rest)) : Splits text v rest := by
  revert read
  fun_cases token? text with
  | case1 | case3 | case6 | case8 => nofun
  | case2 b text other =>
      intro done
      cases done
      exact splits_plain other
  | case4 b notOther m text value simple =>
      intro done
      cases done
      obtain rfl := not_not.1 notOther
      exact splits_mark (simpleEscape?_eq_lookup m ▸ simple)
  | case5 b notOther m text unlisted d digit n rest' taken =>
      intro done
      cases done
      obtain rfl := not_not.1 notOther
      exact splits_octal ((Text.digit?_eq_some_iff (by decide)).1 digit) taken
  | case7 b notOther c text unlisted noDigit =>
      intro done
      obtain rfl := not_not.1 notOther
      obtain ⟨d, digit, done⟩ := Option.bind_eq_some_iff.1 done
      cases done
      exact splits_hexadecimal ((Text.digit?_eq_some_iff (by decide)).1 digit) rfl

/-- **Wherever there is a token one is read.** -/
theorem exists_token? (token : Token written v) (front : written <+: text) :
    ∃ r, token? text = some r := by
  rw [← Option.ne_none_iff_exists']
  intro none
  revert none
  fun_cases token? text with
  | case1 =>
      obtain rfl := List.prefix_nil.1 front
      cases token
  | case2 | case4 | case5 => nofun
  | case3 b notOther =>
      obtain rfl := not_not.1 notOther
      obtain ⟨m, _, _, same, -⟩ := token.front_escape front
      cases same
  | case6 b notOther =>
      obtain rfl := not_not.1 notOther
      obtain ⟨m, more, _, same, -, front, escape⟩ := token.front_escape front
      cases same
      obtain rfl := List.prefix_nil.1 front
      obtain ⟨_, _, _, _, same, -⟩ := escape_hexadecimal_iff.1 escape
      cases same
  | case7 b notOther c tail =>
      obtain rfl := not_not.1 notOther
      obtain ⟨m, more, _, same, -, front, escape⟩ := token.front_escape front
      cases same
      obtain ⟨c', run, d, n, rfl, digit, -⟩ := escape_hexadecimal_iff.1 escape
      obtain ⟨rfl, -⟩ := List.cons_prefix_cons.1 front
      have read : byteDigit? 16 c' = some d := (Text.digit?_eq_some_iff (by decide)).2 digit
      simp [read]
  | case8 b notOther m tail unlisted noDigit other =>
      obtain rfl := not_not.1 notOther
      obtain ⟨m', more, _, same, -, -, escape⟩ := token.front_escape front
      cases same
      rw [simpleEscape?_eq_lookup] at unlisted
      refine absurd escape (not_escape_of_other unlisted (fun d digit => ?_) other)
      cases noDigit.symm.trans ((Text.digit?_eq_some_iff (by decide)).2 digit)

/-- **A token is read** exactly if it is the longest that the text begins with. -/
theorem token?_eq_some_iff : token? text = some (v, rest) ↔ Splits text v rest := by
  constructor
  · exact token?_longest
  · rintro ⟨written, rfl, token, longest⟩
    obtain ⟨⟨v', rest'⟩, read⟩ := exists_token? token (List.prefix_append written rest)
    obtain ⟨written', same, token', longest'⟩ := token?_longest read
    have long : written.length = written'.length := by
      apply Nat.le_antisymm
      · exact longest' _ _ token (List.prefix_append _ _)
      · exact longest _ _ token' (same ▸ List.prefix_append _ _)
    obtain ⟨rfl, rfl⟩ := List.append_inj same long
    rw [read, token.value_unique token']

end ReadToken

/-! ## Reading a value -/

theorem cut_nil {value : Bytes} : Cut [] value ↔ value = [] := by
  constructor
  · intro cut
    generalize blank : ([] : Bytes) = text at cut
    cases cut with
    | nil => rfl
    | token token _ _ => exact absurd (List.append_eq_nil_iff.1 blank.symm).1 token.ne_nil
  · rintro rfl
    exact .nil

theorem cut_iff_token? {text value : Bytes} (given : text ≠ []) :
    Cut text value ↔
      ∃ v rest later, token? text = some (v, rest) ∧ Cut rest later ∧ v :: later = value := by
  constructor
  · intro cut
    cases cut with
    | nil => exact absurd rfl given
    | @token written rest later v token longest cut =>
        exact ⟨v, rest, later, token?_eq_some_iff.2 ⟨written, rfl, token, longest⟩, cut, rfl⟩
  · rintro ⟨v, rest, later, read, cut, rfl⟩
    obtain ⟨written, rfl, token, longest⟩ := token?_eq_some_iff.1 read
    exact .token token longest cut

/-- There are no more tokens than bytes. -/
theorem unescapeUpTo_eq_some_iff {count : Nat} {text value : Bytes} (enough : text.length ≤ count) :
    unescapeUpTo count text = some value ↔ Cut text value := by
  induction count generalizing text value with
  | zero =>
      obtain rfl := List.eq_nil_of_length_eq_zero (Nat.le_zero.1 enough)
      rw [cut_nil, unescapeUpTo, Option.some.injEq, eq_comm]
  | succ count ih =>
      cases text with
      | nil => rw [cut_nil, unescapeUpTo, Option.some.injEq, eq_comm]
      | cons b text =>
          have given : b :: text ≠ [] := List.cons_ne_nil b text
          rw [cut_iff_token? given, unescapeUpTo.eq_3 _ _ given]
          simp only [Option.bind_eq_bind, Option.bind_eq_some_iff, Option.some.injEq, Prod.exists]
          refine exists_congr fun v => exists_congr fun rest => ?_
          rw [← exists_and_left]
          refine exists_congr fun later => and_congr_right fun read => and_congr_left' ?_
          obtain ⟨written, same, token, -⟩ := token?_longest read
          have shorter : rest.length ≤ count := by
            have := List.length_pos_iff.2 token.ne_nil
            have := congrArg List.length same
            rw [List.length_append] at this
            omega
          exact ih shorter

/-- **A value is what the text is cut into.** -/
theorem unescape?_eq_some_iff {text value : Bytes} : unescape? text = some value ↔ Cut text value :=
  unescapeUpTo_eq_some_iff (Nat.le_refl _)

theorem parseString_eq_ok {text : String} {value : Bytes} :
    parseString text = .ok value ↔ Cut (Text.utf8 text) value := by
  rw [parseString, Outcome.elim_eq_ok, unescape?_eq_some_iff]

theorem parseString_eq_error {text : String} {cause : Error} :
    parseString text = .error cause ↔
      cause = .invalidEscape text ∧ ¬ ∃ value, Cut (Text.utf8 text) value := by
  simp only [parseString, Outcome.elim_eq_error, Option.eq_none_iff_forall_ne_some, ne_eq,
    unescape?_eq_some_iff, not_exists]

/-! ## Every byte by its octal digits -/

/-- A byte as a backslash and three octal digits. -/
def octalEscape (b : UInt8) : List Char :=
  ['\\', Nat.digitChar (b.toNat / 64), Nat.digitChar (b.toNat / 8 % 8), Nat.digitChar (b.toNat % 8)]

/-- A byte string with each byte written in octal. -/
def octalText (bytes : Bytes) : String := String.ofList (bytes.flatMap octalEscape)

theorem digitChar_octal {d : Nat} (small : d < 8) :
    IsDigit 8 (Nat.digitChar d) d ∧
      String.utf8EncodeChar (Nat.digitChar d) = [UInt8.ofNat (48 + d)] ∧
      charOf (UInt8.ofNat (48 + d)) = Nat.digitChar d := by
  rw [← Text.digit?_eq_some_iff (by decide)]
  revert d
  decide

/-- What a byte is written as is an octal escape of four bytes. -/
theorem token_octalEscape (b : UInt8) :
    Token (Text.encode (octalEscape b)) b ∧ (Text.encode (octalEscape b)).length = 4 := by
  have low : b.toNat < 256 := b.toNat_lt
  obtain ⟨digit₂, byte₂, char₂⟩ := digitChar_octal (show b.toNat / 64 < 8 by omega)
  obtain ⟨digit₁, byte₁, char₁⟩ := digitChar_octal (show b.toNat / 8 % 8 < 8 by omega)
  obtain ⟨digit₀, byte₀, char₀⟩ := digitChar_octal (show b.toNat % 8 < 8 by omega)
  have bytes : Text.encode (octalEscape b) =
      backslash :: [UInt8.ofNat (48 + b.toNat / 64), UInt8.ofNat (48 + b.toNat / 8 % 8),
        UInt8.ofNat (48 + b.toNat % 8)] := by
    simp only [octalEscape, Text.encode_cons, Text.encode_nil, byte₂, byte₁, byte₀]
    rfl
  have numeral : IsNumeral 8 [Nat.digitChar (b.toNat / 64), Nat.digitChar (b.toNat / 8 % 8),
      Nat.digitChar (b.toNat % 8)] b.toNat := by
    refine ⟨List.cons_ne_nil _ _, _, .cons digit₂ (.cons digit₁ (.cons digit₀ .nil)), ?_⟩
    simp only [List.reverse_cons, List.reverse_nil, List.nil_append, List.cons_append,
      Nat.ofDigits_cons, Nat.ofDigits_nil]
    omega
  rw [bytes]
  constructor
  · nth_rewrite 4 [← UInt8.ofNat_toNat (x := b)]
    refine .escape (.octal (Nat.le_refl _) ?_ (by omega))
    simpa only [List.map_cons, List.map_nil, char₂, char₁, char₀] using numeral
  · rfl

theorem Token.length_le {written : Bytes} {v : UInt8} (token : Token written v) :
    written.length ≤ 4 := by
  cases token with
  | plain _ => simp
  | escape escape =>
      cases escape with
      | mark _ => simp
      | octal count _ _ => exact Nat.succ_le_succ count
      | hexadecimal count _ => exact Nat.succ_le_succ (Nat.succ_le_succ count)

/-- A byte string written in octal is cut into the escapes of its bytes. -/
theorem cut_octal (bytes : Bytes) : Cut (Text.encode (bytes.flatMap octalEscape)) bytes := by
  induction bytes with
  | nil => exact .nil
  | cons b bytes ih =>
      obtain ⟨token, long⟩ := token_octalEscape b
      rw [List.flatMap_cons, Text.encode_append]
      exact .token token (fun _ _ token' _ => long ▸ token'.length_le) ih

/-- **String values are cut into longest tokens.** A text is read as a value exactly if it is cut
into tokens from left to right, each of them the longest that begins there, and their values in a
row are the value; any other text is refused as a whole. A byte string written in octal is read as
that byte string. -/
theorem parseString_iff_cut (text : String) (bytes : Bytes) :
    (∀ value, parseString text = .ok value ↔ Cut (Text.utf8 text) value) ∧
    (∀ cause, parseString text = .error cause ↔
      cause = .invalidEscape text ∧ ¬ ∃ value, Cut (Text.utf8 text) value) ∧
    parseString (octalText bytes) = .ok bytes := by
  refine ⟨fun _ => parseString_eq_ok, fun _ => parseString_eq_error, ?_⟩
  rw [parseString_eq_ok, octalText, Text.utf8_ofList]
  exact cut_octal bytes

-- A third octal digit that would pass 255 is text, and so is what is no hexadecimal digit.
example : parseString "\\400\\x9g" = .ok [0x20, 0x30, 0x09, 0x67] := by decide +kernel

end MediaSniff.Magic
