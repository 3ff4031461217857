/-!
Decimal and hexadecimal integers as text.

Reading takes ASCII digits only: no blanks, no separators, and a sign only where it is allowed.
-/
set_option autoImplicit false

namespace RegisterMachine.Text

/-- A natural number written as one or more decimal digits. -/
def readNat? (text : List Char) : Option Nat :=
  if text ≠ [] ∧ text.all Char.isDigit then some (Nat.ofDigitChars 10 text 0) else none

/-- A natural number, optionally after `+`. -/
def readUnsigned? : List Char → Option Nat
  | '+' :: digits => readNat? digits
  | digits => readNat? digits

/-- An integer, optionally after `+` or `-`. -/
def readSigned? : List Char → Option Int
  | '-' :: digits => (readNat? digits).map fun n => -(n : Int)
  | digits => (readUnsigned? digits).map fun n => (n : Int)

/-- An unsigned 16-bit number; larger ones are refused. -/
def readUInt16? (text : List Char) : Option UInt16 :=
  match readUnsigned? text with
  | some n => if n < UInt16.size then some (UInt16.ofNat n) else none
  | none => none

/-- A signed 32-bit number; integers out of range are refused. -/
def readInt32? (text : List Char) : Option Int32 :=
  match readSigned? text with
  | some n => if -0x80000000 ≤ n ∧ n < 0x80000000 then some (Int32.ofInt n) else none
  | none => none

/-- The lower-case hexadecimal digits of `n`. -/
def hex (n : Nat) : String :=
  String.ofList (Nat.toDigits 16 n)

/-- The text brought to `width` characters by `fill` on its left. -/
def padLeft (width : Nat) (fill : Char) (text : String) : String :=
  String.ofList (text.toList.leftpad width fill)

/-- The text brought to `width` characters by blanks on its right. -/
def padRight (width : Nat) (text : String) : String :=
  String.ofList (text.toList.rightpad width ' ')

end RegisterMachine.Text
