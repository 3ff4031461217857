import RegisterMachine.Assembly.Basic

/-!
Code written as assembly text.

Names of functions and callbacks are taken from a scope; assembled in the same scope, the text gives
the code back where every name stands for what it was taken from.
-/
set_option autoImplicit false

namespace RegisterMachine.Scope

/-- The name of a function; empty if it has none. -/
def functionName (scope : Scope) (id : FuncId) : List Char :=
  match (scope.functions.bind (·.get? id)).bind (·.name) with
  | some name => name.toList
  | none => []

/-- The literal of a value. A callback goes by its name. -/
def literalText (scope : Scope) (value : Value) : List Char :=
  match scope.callbacks.bind fun registry => value.callback?.bind registry.name? with
  | some name => 'e' :: name.toList
  | none => value.text.toList

/-- A slot or an instruction index, in decimal. -/
def slotText (slot : Slot) : List Char :=
  Nat.toDigits 10 slot.toNat

/-- The operands of an instruction. -/
def operandTexts (scope : Scope) : Instruction → List (List Char)
  | .allocate _ dest => [slotText dest]
  | .store _ x y => [slotText x, slotText y]
  | .load _ dest x => [slotText dest, slotText x]
  | .equal dest x y => [slotText dest, slotText x, slotText y]
  | .constant dest value => [slotText dest, scope.literalText value]
  | .constantInt32 dest value => [slotText dest, scope.literalText (.int32 value)]
  | .constantDouble dest value => [slotText dest, scope.literalText (.double value)]
  | .extract _ dest x => [slotText dest, slotText x]
  | .jump target => [slotText target]
  | .branch x target => [slotText x, slotText target]
  | .add dest x y => [slotText dest, slotText x, slotText y]
  | .call dest callee args => slotText dest :: scope.functionName callee :: args.map slotText
  | .leave x => [slotText x]
  | .execute dest callee args => slotText dest :: slotText callee :: args.map slotText

/-- The text of an instruction: the sigil of its opcode and its operands. -/
def printInstruction (scope : Scope) (instruction : Instruction) : List Char :=
  instruction.opcode.sigil.toList ++ [','].intercalate (scope.operandTexts instruction)

/-- The text of code. -/
def print (scope : Scope) (code : List Instruction) : String :=
  String.ofList (['|'].intercalate (code.map scope.printInstruction))

end RegisterMachine.Scope
