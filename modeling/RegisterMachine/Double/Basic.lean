/-!
Binary64 floating-point numbers, as their bits.

Nothing in the machine calculates with doubles: they are copied, compared, written and read. So a
double is its 64 bits, and everything about it is said in natural numbers. The bits below the sign
are the `magnitude`; a finite magnitude is `significand · 2 ^ scale` units of `2 ^ -1074`, and
the magnitude itself equals `scale · 2 ^ 52 + significand`.
-/
set_option autoImplicit false

namespace RegisterMachine

/-- A binary64 number. Two doubles are the same value of this type when all their bits agree. -/
structure Double where
  bits : UInt64
deriving DecidableEq

namespace Double

/-- The weight of the sign bit, `2 ^ 63`. -/
def signBit : Nat := 0x8000000000000000

/-- The weight of the bit above the fraction, `2 ^ 52`: the one that the significand of a normal
number has and its bits do not show. -/
def hiddenBit : Nat := 0x10000000000000

/-- The magnitude of the infinities; larger magnitudes are not numbers. -/
def infiniteMagnitude : Nat := 2047 * hiddenBit

/-- The double with this sign and magnitude. -/
def ofMagnitude (negative : Bool) (magnitude : Nat) : Double :=
  ⟨UInt64.ofNat ((if negative then signBit else 0) + magnitude)⟩

/-- The quiet not-a-number whose only set fraction bit is the highest. -/
def notANumber (negative : Bool) : Double :=
  ofMagnitude negative (infiniteMagnitude + hiddenBit / 2)

/-- Whether the sign bit is set. -/
def isNegative (d : Double) : Bool :=
  signBit ≤ d.bits.toNat

/-- All bits but the sign. -/
def magnitude (d : Double) : Nat :=
  d.bits.toNat % signBit

def isNaN (d : Double) : Bool :=
  infiniteMagnitude < d.magnitude

def isInfinite (d : Double) : Bool :=
  d.magnitude = infiniteMagnitude

def isZero (d : Double) : Bool :=
  d.magnitude = 0

/-- The power of two that a finite double's significand is multiplied with, in units of
`2 ^ -1074`. -/
def scale (d : Double) : Nat :=
  d.magnitude / hiddenBit - 1

/-- The integer significand of a finite double, below `2 ^ 53`. -/
def significand (d : Double) : Nat :=
  d.magnitude - d.scale * hiddenBit

/-- Numeric equality: the zeros are equal, and what is not a number equals nothing. -/
def numericallyEqual (a b : Double) : Bool :=
  !a.isNaN && !b.isNaN && (a == b || (a.isZero && b.isZero))

end Double
end RegisterMachine
