/-!
The wire format of images: bytes for numbers, texts and sequences.

Unsigned numbers are written in groups of seven bits, the lowest first; every byte but the last has
its high bit set. Signed numbers are folded onto unsigned ones, doubles are eight bytes, and texts
and sequences follow their length. A reader takes a value from the front of the bytes and leaves
the rest.
-/
set_option autoImplicit false

namespace RegisterMachine.Wire

/-- Why bytes could not be read. -/
inductive Error where
  | unexpectedEnd
  /-- A number that is too long or too large. -/
  | badVarint
  | badBool
  | badOption
  | badUtf8
  /-- An alternative that does not exist. -/
  | unknownVariant
deriving DecidableEq

def Error.message : Error → String
  | .unexpectedEnd => "Hit the end of buffer, expected more data"
  | .badVarint => "Found a varint that didn't terminate. Is the usize too big for this platform?"
  | .badBool => "Found a bool that wasn't 0 or 1"
  | .badOption => "Found an Option discriminant that wasn't 0 or 1"
  | .badUtf8 => "Tried to parse invalid utf-8"
  | .unknownVariant => "Serde Deserialization Error"

/-- Takes a value from the front of the bytes. -/
abbrev Reader (α : Type) := StateT (List UInt8) (Except Error) α

/-- How many groups of seven bits may precede the last group of a number, and how many bits the
last group has. -/
structure Width where
  groups : Nat
  last : Nat

namespace Width

def bits16 : Width := ⟨2, 2⟩

def bits32 : Width := ⟨4, 4⟩

def bits64 : Width := ⟨9, 1⟩

end Width

/-! ## Writing -/

/-- A number with at most `groups` groups before the last. -/
def writeGroups : Nat → Nat → List UInt8
  | 0, n => [UInt8.ofNat n]
  | groups + 1, n =>
    if n < 128 then [UInt8.ofNat n]
    else UInt8.ofNat (n % 128 + 128) :: writeGroups groups (n / 128)

def writeNumber (width : Width) (n : Nat) : List UInt8 :=
  writeGroups width.groups n

/-- Integers folded onto naturals: zero, minus one, one, minus two, and so on. -/
def zigzag : Int → Nat
  | .ofNat n => 2 * n
  | .negSucc n => 2 * n + 1

def writeInt32 (n : Int32) : List UInt8 :=
  writeNumber .bits32 (zigzag n.toInt)

/-- The lowest `count` bytes of a number, the lowest first. -/
def writeBytes : Nat → Nat → List UInt8
  | 0, _ => []
  | count + 1, n => UInt8.ofNat (n % 256) :: writeBytes count (n / 256)

def writeBool (value : Bool) : List UInt8 :=
  [if value then 1 else 0]

def writeOption {α : Type} (write : α → List UInt8) : Option α → List UInt8
  | none => [0]
  | some value => 1 :: write value

def writeList {α : Type} (write : α → List UInt8) (values : List α) : List UInt8 :=
  writeNumber .bits64 values.length ++ values.flatMap write

def writeString (text : String) : List UInt8 :=
  writeNumber .bits64 text.toByteArray.size ++ text.toByteArray.toList

/-! ## Reading -/

def readByte : Reader UInt8 := fun bytes =>
  match bytes with
  | [] => .error .unexpectedEnd
  | byte :: rest => .ok (byte, rest)

/-- A number with at most `groups` groups before the last, which has `last` bits. More groups than
needed are accepted. -/
def readGroups (last : Nat) : Nat → Reader Nat
  | 0 => do
    let byte ← readByte
    if byte.toNat < Nat.pow 2 last then return byte.toNat else throw .badVarint
  | groups + 1 => do
    let byte ← readByte
    if byte.toNat < 128 then return byte.toNat
    else
      let higher ← readGroups last groups
      return byte.toNat - 128 + 128 * higher

def readNumber (width : Width) : Reader Nat :=
  readGroups width.last width.groups

/-- The integer that `zigzag` folds onto a natural. -/
def unzigzag (n : Nat) : Int :=
  if n % 2 = 0 then .ofNat (n / 2) else .negSucc (n / 2)

def readInt32 : Reader Int32 := do
  return Int32.ofInt (unzigzag (← readNumber .bits32))

/-- A number of `count` bytes, the lowest first. -/
def readBytes : Nat → Reader Nat
  | 0 => return 0
  | count + 1 => do
    let byte ← readByte
    let higher ← readBytes count
    return byte.toNat + 256 * higher

def readBool : Reader Bool := do
  match (← readByte).toNat with
  | 0 => return false
  | 1 => return true
  | _ => throw .badBool

def readOption {α : Type} (read : Reader α) : Reader (Option α) := do
  match (← readByte).toNat with
  | 0 => return none
  | 1 => return some (← read)
  | _ => throw .badOption

/-- As many values as `count` says, one after the other. -/
def readMany {α : Type} (read : Reader α) : Nat → Reader (List α)
  | 0 => return []
  | count + 1 => do
    let value ← read
    let values ← readMany read count
    return value :: values

def readList {α : Type} (read : Reader α) : Reader (List α) := do
  readMany read (← readNumber .bits64)

/-- The next `count` bytes. -/
def take (count : Nat) : Reader (List UInt8) := fun bytes =>
  if bytes.length < count then .error .unexpectedEnd else .ok (bytes.take count, bytes.drop count)

def readString : Reader String := do
  let bytes ← take (← readNumber .bits64)
  match String.fromUTF8? bytes.toByteArray with
  | some text => return text
  | none => throw .badUtf8

end RegisterMachine.Wire
