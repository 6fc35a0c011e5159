/-
# MediaSniff.Json.DoubleRange — numbers in the range of double precision

A number is read into double precision in two factors. The first is made of its digits,
from the left, as long as they fit 64 bits; digits in front of the point that are left
out count as a power of ten, digits behind it do not count at all. The second factor is
the power of ten. Each factor is rounded to a significand of 53 bits, and so is their
product; a number is out of range if the product is rounded to infinity. A number just
below the bound may therefore fall out of range by the rounding of its factors, and one
just above it may stay within.

A negative power of ten divides, which never leads out of range.
-/
import MediaSniff.Json.Value

set_option autoImplicit false

namespace MediaSniff.Json

/-- How many bits a significand has. -/
def significandBits : Nat := 53

/-- A number rounded to the nearest one that a significand of 53 bits and a power of two
make up, a tie going to the even significand. -/
def roundToDouble (n : Nat) : Nat :=
  let shift := n.log2 + 1 - significandBits
  let unit := Nat.pow 2 shift
  let kept := n / unit
  let rest := 2 * (n % unit)
  let up := unit < rest || (rest == unit && kept % 2 == 1)
  (if up then kept + 1 else kept) * unit

/-- The least number that is rounded to infinity: it lies halfway between the greatest
number of double precision and the next power of two. -/
def overflowBound : Nat := Nat.pow 2 1024 - Nat.pow 2 970

/-- The greatest power of ten in double precision. -/
def greatestPower : Nat := 308

/-- The numbers that fit 64 bits lie below. -/
def factorBound : Nat := Nat.pow 2 64

/-- Digits taken in behind a number as long as they fit 64 bits, and how many of them
are left out. -/
def takeDigits (read : Nat) : List Char → Nat × Nat
  | [] => (read, 0)
  | c :: cs =>
      let next := read * 10 + (c.toNat - '0'.toNat)
      if next < factorBound then takeDigits next cs else (read, cs.length + 1)

/-- An exponent, of which no more is asked than whether it is beyond all that numbers
can make up for. -/
def Exponent.toInt (e : Exponent) : Int :=
  let bound := Nat.pow 2 31
  let size := (Text.natural? 10 bound e.digits).getD bound
  if e.negative then -size else size

/-- The two factors of a number: the number that its digits make, and the exponent of
ten. -/
def Number.factors (n : Number) : Nat × Int :=
  let fraction := n.fraction.getD []
  let (whole, leftOut) := takeDigits 0 n.whole
  let (factor, uncounted) := takeDigits whole fraction
  let written := (n.exponent.map Exponent.toInt).getD 0
  (factor, written + leftOut - (fraction.length - uncounted))

/-- Whether a number is in the range of double precision. -/
def Number.isFinite (n : Number) : Bool :=
  let (factor, power) := n.factors
  if factor = 0 || power < 0 then true
  else if greatestPower < power then false
  else roundToDouble factor * roundToDouble (Nat.pow 10 power.toNat) < overflowBound

end MediaSniff.Json
