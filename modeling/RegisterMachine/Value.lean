import RegisterMachine.Double.Shortest

/-!
The values a slot can hold.

Two equalities live side by side. Lean's `=` tells values apart bit by bit; `Value.equals` is the
machine's own notion, in which doubles compare as numbers and every not-a-number equals every
other.
-/
set_option autoImplicit false

namespace RegisterMachine

/-- What the word of a tagged value stands for. -/
inductive Tag where
  /-- The number of a host callback. -/
  | nativeCallback
  /-- A code object, reserved for hosts. -/
  | code
  /-- Open to hosts. -/
  | user (number : UInt16)
deriving DecidableEq

/-- A value of the machine. -/
inductive Value where
  | null
  /-- The content of a cell nothing has been written to yet. -/
  | undefined
  | boolean (value : Bool)
  | int32 (value : Int32)
  | double (value : Double)
  | tagged (tag : Tag) (word : UInt64)
deriving DecidableEq

/-- The kinds of value that diagnostics tell apart. -/
inductive Kind where
  | null
  | undefined
  | boolean
  | int32
  | double
  | nativeCallback
  | code
  | user
deriving DecidableEq

/-- The name of a kind in diagnostics. -/
def Kind.name : Kind → String
  | .null => "null"
  | .undefined => "undefined"
  | .boolean => "boolean"
  | .int32 => "int32"
  | .double => "double"
  | .nativeCallback => "native callback"
  | .code => "code"
  | .user => "user"

/-- The text of a tag inside a tagged value's text. -/
def Tag.text : Tag → String
  | .nativeCallback => "native"
  | .code => "code"
  | .user number => s!"user{number.toNat}"

namespace Value

/-- The value that refers to the callback with this number. -/
def ofCallback (id : UInt32) : Value :=
  .tagged .nativeCallback id.toUInt64

def kind : Value → Kind
  | .null => .null
  | .undefined => .undefined
  | .boolean _ => .boolean
  | .int32 _ => .int32
  | .double _ => .double
  | .tagged .nativeCallback _ => .nativeCallback
  | .tagged .code _ => .code
  | .tagged (.user _) _ => .user

def boolean? : Value → Option Bool
  | .boolean value => some value
  | _ => none

def int32? : Value → Option Int32
  | .int32 value => some value
  | _ => none

def double? : Value → Option Double
  | .double value => some value
  | _ => none

/-- The word of a value that carries exactly this tag. -/
def word? (tag : Tag) : Value → Option UInt64
  | .tagged found word => if found = tag then some word else none
  | _ => none

/-- The number of the callback a value refers to. Callback numbers have 32 bits, so a larger word
refers to none. -/
def callback? (value : Value) : Option UInt32 :=
  match value.word? .nativeCallback with
  | some word => if word.toNat < UInt32.size then some word.toUInt32 else none
  | none => none

/-- The machine's equality of values. -/
def equals : Value → Value → Bool
  | .double a, .double b => a.numericallyEqual b || (a.isNaN && b.isNaN)
  | a, b => a = b

/-- The text of a value. Booleans and numbers are written as the assembler's literals. -/
def text : Value → String
  | .null => "null"
  | .undefined => "undefined"
  | .boolean true => "T"
  | .boolean false => "F"
  | .int32 value => s!"i{value.toInt}"
  | .double value => String.ofList ('d' :: value.text)
  | .tagged tag word => s!"<{tag.text}:0x{Text.hex word.toNat}>"

end Value
end RegisterMachine
