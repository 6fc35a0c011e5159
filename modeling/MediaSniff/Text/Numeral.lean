/-
# MediaSniff.Text.Numeral — digits to numbers

A numeral is one or more digits of its base and nothing else; letters of either case
serve as digits above nine. Only ASCII digits count. Every numeral is read for a place
that has room for numbers below a bound, and reading stops as soon as that is reached,
so a numeral may be of any length. `unsigned32?` reads the decimal numerals of offsets
and references: one plus sign may stand in front, and the value must fit 32 bits.
-/
set_option autoImplicit false

namespace MediaSniff.Text

/-- The value of a digit in a base. -/
def digit? (base : Nat) (c : Char) : Option Nat :=
  let value? :=
    if '0' ≤ c && c ≤ '9' then some (c.toNat - '0'.toNat)
    else if 'a' ≤ c && c ≤ 'z' then some (c.toNat - 'a'.toNat + 10)
    else if 'A' ≤ c && c ≤ 'Z' then some (c.toNat - 'A'.toNat + 10)
    else none
  value?.filter (· < base)

/-- The number below a bound that is written by digits that follow a number already
read. -/
def digitsAfter (base bound : Nat) (read : Nat) : List Char → Option Nat
  | [] => some read
  | c :: cs =>
      match digit? base c with
      | none => none
      | some d =>
          if read * base + d < bound then digitsAfter base bound (read * base + d) cs else none

/-- The number below a bound that is written by one or more digits. -/
def natural? (base bound : Nat) (cs : List Char) : Option Nat :=
  if cs.isEmpty then none else digitsAfter base bound 0 cs

/-- The number below a bound that is written by one or more digits, after a plus sign if
there is one. -/
def signedNatural? (base bound : Nat) : List Char → Option Nat
  | '+' :: cs => natural? base bound cs
  | cs => natural? base bound cs

/-- A numeral of a 32-bit number, with an optional plus sign. -/
def unsigned32? (base : Nat) (cs : List Char) : Option Nat := signedNatural? base (Nat.pow 2 32) cs

end MediaSniff.Text
