import RegisterMachine.Value

/-!
Opcodes and instructions.

The memory instructions come in families: a plain form, which moves any value, and typed forms,
which insist on an int32 or a double. `Access` names the member of a family.
-/
set_option autoImplicit false

namespace RegisterMachine

/-- The index of a value-stack cell, counted from the bottom of the running frame unless an
operand says otherwise. Instruction indices have the same width. -/
abbrev Slot := UInt16

/-- The number of a function in its module. -/
structure FuncId where
  number : UInt32
deriving DecidableEq

namespace FuncId

/-- The function's index in the module's table. -/
def index (id : FuncId) : Nat :=
  id.number.toNat

/-- The id of the function at this index; tables are never longer than ids can count. -/
def ofIndex (index : Nat) : FuncId :=
  ⟨UInt32.ofNat index⟩

def text (id : FuncId) : String :=
  s!"fn#{id.index}"

end FuncId

/-- The numeric kinds that typed instructions insist on. -/
inductive Numeric where
  | int32
  | double
deriving DecidableEq

/-- What a memory instruction lets through. -/
inductive Access where
  | any
  | only (kind : Numeric)
deriving DecidableEq

/-- An instruction without its operands. -/
inductive Opcode where
  | allocate (access : Access)
  | store (access : Access)
  | load (access : Access)
  | equal
  | constant (access : Access)
  | extract (kind : Numeric)
  | jump
  | branch
  | add
  | call
  | leave
  | execute
deriving DecidableEq

/-- An instruction. A function is in single-assignment form: every slot is the destination of at
most one instruction, and the argument slots of none. -/
inductive Instruction where
  /-- Append an undefined cell to the value stack and put its address into `dest`. -/
  | allocate (access : Access) (dest : Slot)
  /-- Write the value of `y` into the cell whose address is in `x`. -/
  | store (access : Access) (x y : Slot)
  /-- Copy the cell whose address is in `x` to `dest`. -/
  | load (access : Access) (dest x : Slot)
  /-- Put `1` into `dest` if the int32 values in `x` and `y` are equal, else `0`. -/
  | equal (dest x y : Slot)
  | constant (dest : Slot) (value : Value)
  | constantInt32 (dest : Slot) (value : Int32)
  | constantDouble (dest : Slot) (value : Double)
  /-- Copy `x` to `dest`, insisting on a numeric kind. -/
  | extract (kind : Numeric) (dest x : Slot)
  /-- Continue at the instruction with index `target`. -/
  | jump (target : UInt16)
  /-- Continue at `target` if the int32 in `x` is not zero. -/
  | branch (x : Slot) (target : UInt16)
  /-- The sum of two int32 values, wrapping around. -/
  | add (dest x y : Slot)
  /-- Call a function of the same module. The arguments are absolute stack indices; the result goes
  to `dest` once the callee returns. -/
  | call (dest : Slot) (callee : FuncId) (args : List Slot)
  /-- Return the value of `x` from the function. -/
  | leave (x : Slot)
  /-- Invoke the callback that slot `callee` refers to with the values of the slots `args`. -/
  | execute (dest callee : Slot) (args : List Slot)
deriving DecidableEq

namespace Numeric

/-- The letter that marks a numeric kind in assembly. -/
def letter : Numeric → String
  | .int32 => "i"
  | .double => "d"

/-- The ending of a numeric kind in a mnemonic. -/
def ending : Numeric → String
  | .int32 => "_I32"
  | .double => "_DBL"

def all : List Numeric :=
  [.int32, .double]

end Numeric

namespace Access

def letter : Access → String
  | .any => ""
  | .only kind => kind.letter

def ending : Access → String
  | .any => ""
  | .only kind => kind.ending

def all : List Access :=
  .any :: Numeric.all.map .only

end Access

namespace Opcode

/-- All opcodes. An opcode's place in this list is its number in images. -/
def all : List Opcode :=
  Access.all.map .allocate ++ Access.all.map .store ++ Access.all.map .load ++ [.equal] ++
    Access.all.map .constant ++ Numeric.all.map .extract ++
    [.jump, .branch, .add, .call, .leave, .execute]

theorem mem_all (opcode : Opcode) : opcode ∈ all := by
  have kinds : ∀ kind : Numeric, kind ∈ Numeric.all := by
    intro kind
    cases kind <;> decide
  have accesses : ∀ access : Access, access ∈ Access.all := by
    intro access
    cases access with
    | any => decide
    | only kind => cases kind <;> decide
  cases opcode <;> simp [all, kinds, accesses]

/-- The letters an instruction begins with in assembly. -/
def sigil : Opcode → String
  | .allocate access => "A" ++ access.letter
  | .store access => "S" ++ access.letter
  | .load access => "L" ++ access.letter
  | .equal => "=i"
  | .constant access => "C" ++ access.letter
  | .extract kind => "E" ++ kind.letter
  | .jump => "J"
  | .branch => "Ii"
  | .add => "+i"
  | .call => "()"
  | .leave => "R"
  | .execute => "X"

/-- The name of an opcode in listings. -/
def mnemonic : Opcode → String
  | .allocate access => "ALLOC" ++ access.ending
  | .store access => "STORE" ++ access.ending
  | .load access => "LOAD" ++ access.ending
  | .equal => "EQ_I32"
  | .constant access => "CONST" ++ access.ending
  | .extract kind => "EXTRACT" ++ kind.ending
  | .jump => "JUMP"
  | .branch => "IF_I32"
  | .add => "ADD_I32"
  | .call => "CALL"
  | .leave => "RETURN"
  | .execute => "EXECUTE"

end Opcode

namespace Instruction

def opcode : Instruction → Opcode
  | .allocate access _ => .allocate access
  | .store access _ _ => .store access
  | .load access _ _ => .load access
  | .equal _ _ _ => .equal
  | .constant _ _ => .constant .any
  | .constantInt32 _ _ => .constant (.only .int32)
  | .constantDouble _ _ => .constant (.only .double)
  | .extract kind _ _ => .extract kind
  | .jump _ => .jump
  | .branch _ _ => .branch
  | .add _ _ _ => .add
  | .call _ _ _ => .call
  | .leave _ => .leave
  | .execute _ _ _ => .execute

/-- The slot an instruction assigns. -/
def dest? : Instruction → Option Slot
  | .allocate _ dest
  | .load _ dest _
  | .equal dest _ _
  | .constant dest _
  | .constantInt32 dest _
  | .constantDouble dest _
  | .extract _ dest _
  | .add dest _ _
  | .call dest _ _
  | .execute dest _ _ => some dest
  | .store _ _ _ | .jump _ | .branch _ _ | .leave _ => none

/-- The first slot an instruction reads; that of `execute` holds the callback. -/
def x? : Instruction → Option Slot
  | .store _ x _
  | .load _ _ x
  | .equal _ x _
  | .extract _ _ x
  | .branch x _
  | .add _ x _
  | .leave x => some x
  | .execute _ callee _ => some callee
  | .allocate _ _ | .constant _ _ | .constantInt32 _ _ | .constantDouble _ _ | .jump _
  | .call _ _ _ => none

/-- The second slot an instruction reads. -/
def y? : Instruction → Option Slot
  | .store _ _ y
  | .equal _ _ y
  | .add _ _ y => some y
  | _ => none

/-- The instruction index a jump or branch names. -/
def target? : Instruction → Option UInt16
  | .jump target
  | .branch _ target => some target
  | _ => none

/-- The constant an instruction carries. -/
def value? : Instruction → Option Value
  | .constant _ value => some value
  | .constantInt32 _ value => some (.int32 value)
  | .constantDouble _ value => some (.double value)
  | _ => none

/-- The function an instruction calls. -/
def callee? : Instruction → Option FuncId
  | .call _ callee _ => some callee
  | _ => none

/-- The arguments of a call or of a callback's invocation. -/
def args? : Instruction → Option (List Slot)
  | .call _ _ args
  | .execute _ _ args => some args
  | _ => none

/-- The machine's equality of instructions. Constants compare as values do, except that the
payload of a double constant compares as a number: not-a-number differs from itself there. -/
def equals : Instruction → Instruction → Bool
  | .constant dest value, .constant dest' value' => dest = dest' && value.equals value'
  | .constantDouble dest value, .constantDouble dest' value' =>
    dest = dest' && value.numericallyEqual value'
  | a, b => a = b

/-- The same instruction with its call target renamed. -/
def mapCallee (rename : FuncId → FuncId) : Instruction → Instruction
  | .call dest callee args => .call dest (rename callee) args
  | other => other

end Instruction
end RegisterMachine
