import RegisterMachine.Assembly.Definition
import RegisterMachine.Image.Basic
import RegisterMachine.Machine.Step

/-!
Engines: a growing module with the callbacks, globals and limits its functions run under.

An operation that fails can still leave its mark, so operations give back the engine in either
case. Handles keep the module as it was when they were made; every operation that can change the
module counts as a revision, so handles from before and after it differ.
-/
set_option autoImplicit false

namespace RegisterMachine

/-- Why an engine could not do as asked. -/
inductive EngineError where
  | assembly (error : AssemblyError)
  | verify (error : VerifyError)
  | fault (cause : Fault)
  | image (error : ImageError)
  | build (error : BuildError)
  | host (error : HostError)
  | undefinedFunction (name : String)
deriving DecidableEq

def EngineError.message : EngineError → String
  | .assembly error => s!"assembly error at {error.message}"
  | .verify error => s!"verification error: {error.message}"
  | .fault cause => s!"runtime error: {cause.message}"
  | .image error => error.message
  | .build error => error.message
  | .host error => error.message
  | .undefinedFunction name => s!"undefined function '{name}'"

/-- An engine. -/
structure Engine where
  globals : Globals
  host : Registry
  limits : Limits
  module : Module
  stamp : Stamp

namespace Engine

/-- An engine without functions, callbacks and globals. Distinct owners make handles of distinct
engines differ. -/
def new (owner : Nat) (limits : Limits) : Engine :=
  ⟨∅, .empty, limits, .empty, ⟨owner, 0⟩⟩

/-! ## Globals and callbacks -/

/-- Set a global variable and give the value it had. -/
def setGlobal (engine : Engine) (name : String) (value : Value) : Option Value × Engine :=
  (engine.globals[name]?, { engine with globals := engine.globals.insert name value })

/-- Remove a global variable and give the value it had. -/
def removeGlobal (engine : Engine) (name : String) : Option Value × Engine :=
  (engine.globals[name]?, { engine with globals := engine.globals.erase name })

def registerCallback (engine : Engine) (name : String) (callback : Callback) :
    Except EngineError (Value × Engine) :=
  match engine.host.register name callback with
  | .ok (value, host) => .ok (value, { engine with host := host })
  | .error error => .error (.host error)

/-! ## Functions -/

/-- The engine with another module, as a new revision. -/
def revise (engine : Engine) (module : Module) : Engine :=
  { engine with
    module := module
    stamp := { engine.stamp with revision := engine.stamp.revision + 1 } }

/-- A handle to a function of the engine. -/
def handle (engine : Engine) (id : FuncId) : Except EngineError Function :=
  match Function.of? engine.stamp engine.module id with
  | some function => .ok function
  | none => .error (.build (.unknownFunction id))

/-- The function that a name stands for. -/
def function? (engine : Engine) (name : String) : Option Function := do
  let id ← engine.module.lookup name
  Function.of? engine.stamp engine.module id

def lookup (engine : Engine) (name : String) : Except EngineError Function :=
  match engine.function? name with
  | some function => .ok function
  | none => .error (.undefinedFunction name)

/-- Name a function that gets its body later. -/
def declare (engine : Engine) (name : String) (argCount : Slot) :
    Except EngineError FuncId × Engine :=
  match engine.module.declare name argCount with
  | .ok (id, module) => (.ok id, engine.revise module)
  | .error error => (.error (.build error), engine.revise engine.module)

/-- The declared function that a definition of this name and argument count fills in. -/
def pending? (module : Module) (name : String) (argCount : Slot) : Option FuncId := do
  let id ← module.lookup name
  let definition ← module.get? id
  if definition.isDefined = false ∧ definition.argCount = argCount then some id else none

/-- Give function `id` the body that `source` describes and check it. The module is the one
reached when the error, if any, arose. -/
def defineBody (module : Module) (host : Registry) (id : FuncId) (source : String)
    (numLocals : Slot) : Except EngineError Unit × Module :=
  match Scope.assemble ⟨some module, some host⟩ source with
  | .error error => (.error (.assembly error), module)
  | .ok code =>
    match module.define id code numLocals with
    | .error error => (.error (.build error), module)
    | .ok defined =>
      match defined.check id with
      | .error error => (.error (.verify error), defined)
      | .ok () => (.ok (), defined)

/-- Define a function by its text. A declaration of the same name and argument count is filled in;
otherwise the function is new. If the text is refused, a new function disappears again and a
declared one has no body. -/
def defineText (engine : Engine) (name source : String) (argCount numLocals : Slot) :
    Except EngineError Function × Engine :=
  match pending? engine.module name argCount with
  | some id =>
    match defineBody engine.module engine.host id source numLocals with
    | (.ok (), module) =>
      let revised := engine.revise module
      (revised.handle id, revised)
    | (.error error, module) => (.error error, engine.revise (module.undefine id))
  | none =>
    match engine.module.declare name argCount with
    | .error error => (.error (.build error), engine.revise engine.module)
    | .ok (id, declared) =>
      match defineBody declared engine.host id source numLocals with
      | (.ok (), module) =>
        let revised := engine.revise module
        (revised.handle id, revised)
      | (.error error, module) =>
        (.error error, engine.revise (module.truncate engine.module.size))

/-- Verify a function and enter a copy of it, with everything it calls, under `name`. What it calls
keeps its own names. -/
def define (engine : Engine) (name : String) (function : Function) :
    Except EngineError Function × Engine :=
  match function.verifyAll with
  | .error error => (.error (.verify error), engine)
  | .ok () =>
    match engine.module.importFunction function with
    | .error error => (.error (.build error), engine.revise engine.module)
    | .ok (id, module) =>
      let revised := engine.revise (module.rename id name)
      (revised.handle id, revised)

/-- The image of the function that a name stands for. -/
def saveImage (engine : Engine) (name : String) : Except EngineError (List UInt8) := do
  let function ← engine.lookup name
  match Image.encode function with
  | .ok bytes => .ok bytes
  | .error error => .error (.image error)

/-- Enter the function of an image under `name`. -/
def loadImage (engine : Engine) (name : String) (bytes : List UInt8) :
    Except EngineError Function × Engine :=
  match Image.decode engine.stamp bytes with
  | .error error => (.error (.image error), engine)
  | .ok function => engine.define name function

/-! ## Execution -/

/-- What the engine's functions run in. -/
def environment (engine : Engine) : Environment :=
  ⟨engine.limits, some engine.host, some engine.globals⟩

/-- Verify a function and run it, for at most `fuel` instructions. The result is a value once the
function has returned. -/
def runFunction (engine : Engine) (fuel : Nat) (function : Function) (args : List Value) :
    Except EngineError (Option Value) × Machine :=
  match function.verifyAll with
  | .error error => (.error (.verify error), .idle)
  | .ok () =>
    match Machine.interpret engine.environment fuel .idle function args with
    | (.running, machine) => (.ok none, machine)
    | (.returned value, machine) => (.ok (some value), machine)
    | (.faulted cause, machine) => (.error (.fault cause), machine)

/-- Run the function that a name stands for, for at most `fuel` instructions. -/
def run (engine : Engine) (fuel : Nat) (name : String) (args : List Value) :
    Except EngineError (Option Value) × Machine :=
  match engine.lookup name with
  | .error error => (.error error, .idle)
  | .ok function => engine.runFunction fuel function args

end Engine
end RegisterMachine
