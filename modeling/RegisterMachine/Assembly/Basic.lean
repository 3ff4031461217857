import RegisterMachine.Assembly.Literal
import RegisterMachine.Module.Basic

/-!
Assembly: code as a line of text.

Instructions are separated by `|`. Each begins with the sigil of its opcode, and its operands are
separated by commas: slots and instruction indices in decimal, literals, and the names of called
functions. For instance `Ci0,i2|Ci1,i3|+i2,0,1|R2` adds two and three.
-/
set_option autoImplicit false

namespace RegisterMachine

/-- What is wrong with the operands of an instruction. -/
inductive OperandError where
  | count (expected found : Nat)
  | invalidIndex (text : String)
  | literal (error : LiteralError)
  | literalKind (expected : Numeric) (found : Kind)
  | callWithoutName
  | unknownFunction (name : String)
  | callArity (name : String) (expected found : Nat)
  | executeWithoutCallee
deriving DecidableEq

def OperandError.message : OperandError → String
  | .count expected found =>
    let plural := if expected = 1 then "" else "s"
    s!"expected {expected} operand{plural}, got {found}"
  | .invalidIndex text => s!"invalid index '{text}'"
  | .literal error => error.message
  | .literalKind .int32 found => s!"expected int32 literal, got {found.name}"
  | .literalKind .double found => s!"expected double literal, got {found.name}"
  | .callWithoutName => "expected dest and function name"
  | .unknownFunction name => s!"unknown function name '{name}'"
  | .callArity name expected found => s!"function '{name}' takes {expected} arguments, got {found}"
  | .executeWithoutCallee => "expected dest and callee slot"

/-- Why an instruction cannot be assembled. -/
inductive AssemblyCause where
  | emptyInstruction
  | invalidOpcode (token : String)
  | operands (opcode : Opcode) (token : String) (error : OperandError)
  /-- The function being defined could not be entered in its module. -/
  | build (error : BuildError)
deriving DecidableEq

def AssemblyCause.message : AssemblyCause → String
  | .emptyInstruction => "empty instruction"
  | .invalidOpcode token => s!"invalid opcode '{token}'"
  | .operands opcode token error =>
    s!"failed to parse '{opcode.sigil}' from '{token}': {error.message}"
  | .build error => error.message

/-- An assembly error and the byte position in the text where its instruction begins. -/
structure AssemblyError where
  position : Nat
  cause : AssemblyCause
deriving DecidableEq

def AssemblyError.message (error : AssemblyError) : String :=
  s!"position {error.position}: {error.cause.message}"

/-- The names that a text is assembled against. -/
structure Scope where
  functions : Option Module
  callbacks : Option Registry

/-- Opcodes in the order in which they are recognised: those with two letters before those with
one, so that no sigil hides a longer one. -/
def Opcode.longestFirst : List Opcode :=
  Opcode.all.filter (fun opcode => opcode.sigil.length = 2) ++
    Opcode.all.filter (fun opcode => opcode.sigil.length = 1)

/-- The opcode that a token begins with, and the text of its operands. -/
def Opcode.recognise (token : List Char) : Option (Opcode × List Char) :=
  (Opcode.longestFirst.find? fun opcode => opcode.sigil.toList.isPrefixOf token).map fun opcode =>
    (opcode, token.drop opcode.sigil.toList.length)

namespace Assembly

/-- The operands of an instruction; an empty text has none. -/
def operands : List Char → List (List Char)
  | [] => []
  | text => text.splitOn ','

/-- Read a slot or an instruction index. -/
def readSlot (text : List Char) : Except OperandError Slot :=
  match Text.readUInt16? text with
  | some slot => .ok slot
  | none => .error (.invalidIndex (String.ofList text))

/-- An instruction with one slot operand. -/
def unary (build : Slot → Instruction) : List (List Char) → Except OperandError Instruction
  | [a] => do return build (← readSlot a)
  | found => .error (.count 1 found.length)

/-- An instruction with two slot operands. -/
def binary (build : Slot → Slot → Instruction) : List (List Char) → Except OperandError Instruction
  | [a, b] => do return build (← readSlot a) (← readSlot b)
  | found => .error (.count 2 found.length)

/-- An instruction with three slot operands. -/
def ternary (build : Slot → Slot → Slot → Instruction) :
    List (List Char) → Except OperandError Instruction
  | [a, b, c] => do return build (← readSlot a) (← readSlot b) (← readSlot c)
  | found => .error (.count 3 found.length)

end Assembly

namespace Scope

open Assembly

/-- Read a literal operand. -/
def literal (scope : Scope) (text : List Char) : Except OperandError Value :=
  match readLiteral scope.callbacks text with
  | .ok value => .ok value
  | .error error => .error (.literal error)

/-- A constant, whose literal has to be of the kind that the opcode names. -/
def constant (scope : Scope) (access : Access) : List (List Char) → Except OperandError Instruction
  | [a, b] => do
    let dest ← readSlot a
    let value ← scope.literal b
    match access, value with
    | .any, value => .ok (.constant dest value)
    | .only .int32, .int32 value => .ok (.constantInt32 dest value)
    | .only .double, .double value => .ok (.constantDouble dest value)
    | .only kind, value => .error (.literalKind kind value.kind)
  | found => .error (.count 2 found.length)

/-- The function a call names, with the number of its arguments. -/
def function? (scope : Scope) (name : String) : Option (FuncId × Slot) := do
  let module ← scope.functions
  let id ← module.lookup name
  let definition ← module.get? id
  return (id, definition.argCount)

/-- A call. Its name is looked up before its arguments are read. -/
def call (scope : Scope) : List (List Char) → Except OperandError Instruction
  | dest :: name :: rest => do
    let dest ← readSlot dest
    let name := String.ofList name
    match scope.function? name with
    | none => .error (.unknownFunction name)
    | some (callee, argCount) =>
      let args ← rest.mapM readSlot
      if args.length = argCount.toNat then .ok (.call dest callee args)
      else .error (.callArity name argCount.toNat args.length)
  | _ => .error .callWithoutName

/-- An invocation of a callback. -/
def execute : List (List Char) → Except OperandError Instruction
  | dest :: callee :: rest => do
    let dest ← readSlot dest
    let callee ← readSlot callee
    let args ← rest.mapM readSlot
    .ok (.execute dest callee args)
  | _ => .error .executeWithoutCallee

/-- An instruction with this opcode and these operands. -/
def assembleOperands (scope : Scope) : Opcode → List (List Char) → Except OperandError Instruction
  | .allocate access => unary (.allocate access)
  | .store access => binary (.store access)
  | .load access => binary (.load access)
  | .equal => ternary .equal
  | .constant access => scope.constant access
  | .extract kind => binary (.extract kind)
  | .jump => unary .jump
  | .branch => binary .branch
  | .add => ternary .add
  | .call => scope.call
  | .leave => unary .leave
  | .execute => execute

/-- The instruction that a token stands for. -/
def assembleToken (scope : Scope) (token : List Char) : Except AssemblyCause Instruction :=
  if token = [] then .error .emptyInstruction
  else match Opcode.recognise token with
    | none => .error (.invalidOpcode (String.ofList token))
    | some (opcode, text) =>
      match scope.assembleOperands opcode (operands text) with
      | .ok instruction => .ok instruction
      | .error error => .error (.operands opcode (String.ofList token) error)

/-- Assemble tokens, the first of which begins at byte `position`. -/
def assembleTokens (scope : Scope) (position : Nat) :
    List (List Char) → Except AssemblyError (List Instruction)
  | [] => .ok []
  | token :: rest =>
    match scope.assembleToken token with
    | .error cause => .error ⟨position, cause⟩
    | .ok instruction => do
      let code ← scope.assembleTokens (position + (String.ofList token).utf8ByteSize + 1) rest
      return instruction :: code

/-- Assemble a text. The empty text is the empty code. -/
def assemble (scope : Scope) (source : String) : Except AssemblyError (List Instruction) :=
  match source.toList with
  | [] => .ok []
  | text => scope.assembleTokens 0 (text.splitOn '|')

end Scope
end RegisterMachine
