import RegisterMachine.Module.Basic
import RegisterMachine.Text.Quoted

/-!
Handles to functions of a finished module.

A handle carries the module it belongs to, so it stays valid whatever happens to the module it was
taken from. Handles are told apart by where they come from, not by content: every finished module
has a stamp, and two handles are the same when stamp and id agree.
-/
set_option autoImplicit false

namespace RegisterMachine

/-- The identity of a finished module: the owner that made it and the owner's count of changes up
to then. -/
structure Stamp where
  owner : Nat
  revision : Nat
deriving DecidableEq

/-- One function of a finished module. -/
structure Function where
  stamp : Stamp
  module : Module
  id : FuncId
  inModule : id.index < module.functions.length

namespace Function

/-- The function `id` of `module`, if there is one. -/
def of? (stamp : Stamp) (module : Module) (id : FuncId) : Option Function :=
  if inModule : id.index < module.functions.length then some ⟨stamp, module, id, inModule⟩ else none

/-- A function that is alone in its module. -/
def single (stamp : Stamp) (code : List Instruction) (argCount numLocals : Slot) : Function :=
  ⟨stamp, .single code argCount numLocals, ⟨0⟩, Nat.zero_lt_one⟩

def definition (function : Function) : Definition :=
  function.module.functions.get ⟨function.id.index, function.inModule⟩

def name (function : Function) : Option String :=
  function.definition.name

def code (function : Function) : List Instruction :=
  function.definition.code

/-- The number of instructions. -/
def length (function : Function) : Nat :=
  function.code.length

def argCount (function : Function) : Slot :=
  function.definition.argCount

def numLocals (function : Function) : Slot :=
  function.definition.numLocals

def frameSize (function : Function) : Nat :=
  function.definition.frameSize

/-- Another function of the same module. -/
def callee? (function : Function) (id : FuncId) : Option Function :=
  of? function.stamp function.module id

/-- Whether two handles name the same function of the same finished module. -/
def same (a b : Function) : Bool :=
  a.stamp = b.stamp && a.id = b.id

/-- A handle in diagnostics. -/
def describe (function : Function) : String :=
  let name := match function.name with
    | some name => "Some(" ++ Text.quoted name ++ ")"
    | none => "None"
  "Function \x7b id: FuncId(" ++ toString function.id.index ++ "), name: " ++ name ++
    ", len: " ++ toString function.length ++
    ", arg_count: " ++ toString function.argCount.toNat ++
    ", num_locals: " ++ toString function.numLocals.toNat ++ " \x7d"

end Function
end RegisterMachine
