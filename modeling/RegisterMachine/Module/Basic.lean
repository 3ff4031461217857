import RegisterMachine.Instruction

/-!
Modules: tables of functions that call each other by number.

A function is declared with a name and an argument count, and gets its body later or at once.
Names need not be distinct; a later function shadows an earlier one of the same name.
-/
set_option autoImplicit false

namespace RegisterMachine

/-- The index of the last element that satisfies `p`. -/
def lastIndex? {α : Type} (p : α → Bool) : List α → Option Nat
  | [] => none
  | a :: rest =>
    match lastIndex? p rest with
    | some index => some (index + 1)
    | none => if p a then some 0 else none

/-- One function of a module. A function without a body is declared only. -/
structure Definition where
  name : Option String
  argCount : Slot
  numLocals : Slot
  body : Option (List Instruction)
deriving DecidableEq

namespace Definition

/-- The instructions of a function; a declared function has none. -/
def code (definition : Definition) : List Instruction :=
  definition.body.getD []

def isDefined (definition : Definition) : Bool :=
  definition.body.isSome

/-- The number of slots of one activation. -/
def frameSize (definition : Definition) : Nat :=
  definition.argCount.toNat + definition.numLocals.toNat

/-- The functions called, one entry for each call in the order of the code. -/
def callees (definition : Definition) : List FuncId :=
  definition.code.filterMap Instruction.callee?

/-- A function that is declared only. -/
def declared (name : String) (argCount : Slot) : Definition :=
  ⟨some name, argCount, 0, none⟩

/-- A function without a name. -/
def anonymous (code : List Instruction) (argCount numLocals : Slot) : Definition :=
  ⟨none, argCount, numLocals, some code⟩

/-- The same function with its call targets renamed. -/
def mapCallees (rename : FuncId → FuncId) (definition : Definition) : Definition :=
  { definition with body := definition.body.map fun code => code.map (Instruction.mapCallee rename) }

end Definition

/-- Why a module could not be changed as asked. -/
inductive BuildError where
  | unknownFunction (id : FuncId)
  | alreadyDefined (id : FuncId)
  /-- There is no number left for another function. -/
  | tooManyFunctions
deriving DecidableEq

def BuildError.message : BuildError → String
  | .unknownFunction id => s!"unknown function {id.text}"
  | .alreadyDefined id => s!"{id.text} is already defined"
  | .tooManyFunctions => "module holds more functions than a function id can address"

/-- A table of functions. -/
structure Module where
  functions : List Definition
deriving DecidableEq

namespace Module

def empty : Module :=
  ⟨[]⟩

/-- A module with one function, which has no name. -/
def single (code : List Instruction) (argCount numLocals : Slot) : Module :=
  ⟨[.anonymous code argCount numLocals]⟩

def size (module : Module) : Nat :=
  module.functions.length

/-- The number of functions that ids can tell apart. -/
def capacity : Nat := UInt32.size

def get? (module : Module) (id : FuncId) : Option Definition :=
  module.functions[id.index]?

/-- The ids of all functions, in order. -/
def ids (module : Module) : List FuncId :=
  (List.range module.size).map FuncId.ofIndex

/-- The last function with this name. -/
def lookup (module : Module) (name : String) : Option FuncId :=
  (lastIndex? (fun definition => definition.name = some name) module.functions).map FuncId.ofIndex

/-- Append a function. -/
def push (module : Module) (definition : Definition) : Except BuildError (FuncId × Module) :=
  if module.size < capacity then
    .ok (.ofIndex module.size, ⟨module.functions ++ [definition]⟩)
  else .error .tooManyFunctions

/-- Append a function that has a name and no body yet. -/
def declare (module : Module) (name : String) (argCount : Slot) :
    Except BuildError (FuncId × Module) :=
  module.push (.declared name argCount)

/-- Append a function that has a body and no name. -/
def add (module : Module) (code : List Instruction) (argCount numLocals : Slot) :
    Except BuildError (FuncId × Module) :=
  module.push (.anonymous code argCount numLocals)

/-- Change the function `id`, if there is one. -/
def modify (module : Module) (id : FuncId) (change : Definition → Definition) : Module :=
  ⟨module.functions.modify id.index change⟩

/-- Give a declared function its body and its number of locals. -/
def define (module : Module) (id : FuncId) (code : List Instruction) (numLocals : Slot) :
    Except BuildError Module :=
  match module.get? id with
  | none => .error (.unknownFunction id)
  | some definition =>
    if definition.isDefined then .error (.alreadyDefined id)
    else .ok (module.modify id fun definition =>
      { definition with body := some code, numLocals := numLocals })

/-- Give a function another name. -/
def rename (module : Module) (id : FuncId) (name : String) : Module :=
  module.modify id fun definition => { definition with name := some name }

/-- Take a function's body away. Its number of locals stays. -/
def undefine (module : Module) (id : FuncId) : Module :=
  module.modify id fun definition => { definition with body := none }

/-- Forget every function from index `size` on. -/
def truncate (module : Module) (size : Nat) : Module :=
  ⟨module.functions.take size⟩

end Module
end RegisterMachine
