import RegisterMachine.Double.Decimal

/-!
Doubles written as decimal text.

The text has the fewest digits that read back to the same double. Among decimals with that many
digits the nearest is taken, and of two equally near ones the larger. Digits are written out in
full, without an exponent.
-/
set_option autoImplicit false

namespace RegisterMachine.Double

/-- A decimal `coefficient · 10 ^ exponent`. -/
structure Decimal where
  coefficient : Nat
  exponent : Int
deriving DecidableEq

namespace Decimal

/-- The digits written out in full: zeros fill the places up to the point, and a point stands
only before digits. -/
def positional (decimal : Decimal) : List Char :=
  let digits := Nat.toDigits 10 decimal.coefficient
  let places := (-decimal.exponent).toNat
  if 0 ≤ decimal.exponent then digits ++ List.replicate decimal.exponent.toNat '0'
  else if places < digits.length then
    digits.take (digits.length - places) ++ '.' :: digits.drop (digits.length - places)
  else '0' :: '.' :: (List.replicate (places - digits.length) '0' ++ digits)

end Decimal

/-- Whether `decimal` reads back as this magnitude. -/
def readsBackAs (magnitude : Nat) (decimal : Decimal) : Bool :=
  roundDecimal decimal.coefficient decimal.exponent = magnitude

/-- The multiples of `10 ^ exponent` on both sides of a finite double, the nearer one first; the
larger comes first when both are equally near. -/
def neighbours (d : Double) (exponent : Int) : List Decimal :=
  let numerator := d.significand * Nat.pow 2 d.scale * Nat.pow 10 (-exponent).toNat
  let denominator := Nat.pow 2 1074 * Nat.pow 10 exponent.toNat
  let below : Decimal := ⟨numerator / denominator, exponent⟩
  let above : Decimal := ⟨numerator / denominator + 1, exponent⟩
  if 2 * (numerator % denominator) < denominator then [below, above] else [above, below]

/-- A power of ten above a finite double, at most a few places above it: `30103 / 100000` is
just over the decimal logarithm of two. -/
def leadingExponent (d : Double) : Int :=
  ((Nat.log2 d.significand + d.scale : Int) - 1073) * 30103 / 100000 + 2

/-- All digits of a finite double. -/
def exact (d : Double) : Decimal :=
  ⟨d.significand * Nat.pow 2 d.scale * Nat.pow 5 1074, -1074⟩

/-- The shortest decimal that reads back as this finite double: the search goes from coarse
powers of ten to fine ones. -/
def shortest (d : Double) : Decimal :=
  let coarseToFine := (List.range 24).map fun step : Nat => d.leadingExponent - step
  ((coarseToFine.flatMap d.neighbours).find? (readsBackAs d.magnitude)).getD d.exact

/-- The text of a double without its sign. -/
def unsignedText (d : Double) : List Char :=
  if d.isInfinite then ['i', 'n', 'f']
  else if d.isZero then ['0']
  else d.shortest.positional

/-- The text of a double: what is not a number has no sign. -/
def text (d : Double) : List Char :=
  if d.isNaN then ['N', 'a', 'N']
  else if d.isNegative then '-' :: d.unsignedText
  else d.unsignedText

end RegisterMachine.Double
