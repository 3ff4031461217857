import RegisterMachine.Double.Basic
import RegisterMachine.Text.Number

/-!
Doubles read from decimal text.

A decimal `coefficient · 10 ^ exponent` is rounded to the nearest double; of two equally near
ones, the one with the even significand. All arithmetic is exact, on natural numbers.
-/
set_option autoImplicit false

namespace RegisterMachine.Double

/-- The integer nearest to `numerator / denominator`, a half going to the even neighbour. -/
def roundHalfEven (numerator denominator : Nat) : Nat :=
  let below := numerator / denominator
  let twice := 2 * (numerator % denominator)
  if twice < denominator ∨ (twice = denominator ∧ below % 2 = 0) then below else below + 1

/-- The magnitude nearest to the fraction `numerator / denominator`, infinite where the fraction
rounds to `2 ^ 1024` or more. The scale is the least that brings the significand below `2 ^ 53`; a
significand rounded up to `2 ^ 53` carries into the scale by itself. -/
def roundFraction (numerator denominator : Nat) : Nat :=
  let units := numerator * Nat.pow 2 1074
  let scale := Nat.log2 (units / denominator) - 52
  min (scale * hiddenBit + roundHalfEven units (denominator * Nat.pow 2 scale)) infiniteMagnitude

/-- The magnitude nearest to `coefficient · 10 ^ exponent`. Decimals from `10 ^ 310` on are
infinite, and those below `10 ^ -330` are zero whatever their digits. -/
def roundDecimal (coefficient : Nat) (exponent : Int) : Nat :=
  let leading := exponent + (Nat.toDigits 10 coefficient).length
  if coefficient = 0 ∨ leading < -330 then 0
  else if 310 < leading then infiniteMagnitude
  else roundFraction (coefficient * Nat.pow 10 exponent.toNat) (Nat.pow 10 (-exponent).toNat)

/-- The exponent part of a number's text: nothing, or `e` or `E` and an integer. -/
def readExponent? : List Char → Option Int
  | [] => some 0
  | c :: digits => if c = 'e' ∨ c = 'E' then Text.readSigned? digits else none

/-- The magnitude of an unsigned decimal: digits, optionally a point and more digits, optionally
an exponent. There is a digit before or after the point. -/
def readMagnitude? (text : List Char) : Option Nat :=
  let whole := text.takeWhile Char.isDigit
  let (fraction, rest) := match text.dropWhile Char.isDigit with
    | '.' :: after => (after.takeWhile Char.isDigit, after.dropWhile Char.isDigit)
    | rest => ([], rest)
  let digits := whole ++ fraction
  if digits = [] then none
  else (readExponent? rest).map fun exponent =>
    roundDecimal (Nat.ofDigitChars 10 digits 0) (exponent - fraction.length)

/-- An unsigned double: a decimal, or a name for infinity or not-a-number in any case. -/
def readUnsigned? (negative : Bool) (text : List Char) : Option Double :=
  let name := String.ofList (text.map Char.toLower)
  if name = "inf" ∨ name = "infinity" then some (ofMagnitude negative infiniteMagnitude)
  else if name = "nan" then some (notANumber negative)
  else (readMagnitude? text).map (ofMagnitude negative)

/-- The double written as `text`, optionally after `+` or `-`. -/
def read? : List Char → Option Double
  | '-' :: text => readUnsigned? true text
  | '+' :: text => readUnsigned? false text
  | text => readUnsigned? false text

end RegisterMachine.Double
