import Std.Data.ExtTreeMap
import RegisterMachine.Fault
import RegisterMachine.Module.Basic
import RegisterMachine.Text.Quoted

/-!
The host's side: global variables and callbacks.

A callback sees its arguments and the globals and answers with a value and the lines it prints.
Registering it gives the value by which code refers to it.
-/
set_option autoImplicit false

namespace RegisterMachine

/-- Global variables by name. They are equal if they give every name the same value, in whatever
order they were set. -/
abbrev Globals := Std.ExtTreeMap String Value

/-- What a callback answers. -/
structure Reply where
  value : Value
  lines : List String

/-- What a callback sees of the machine that invokes it. -/
structure Invocation where
  args : List Value
  globals : Option Globals

/-- The global variable with this name; none if the machine runs without globals. -/
def Invocation.global? (invocation : Invocation) (name : String) : Option Value :=
  invocation.globals.bind (·[name]?)

/-- A host function that code can invoke. It is taken to answer every invocation, and by what it
sees alone: two invocations that show it the same arguments and globals get the same reply, whatever
came before them. That a run ends, or goes as another one does, is meant for such callbacks. -/
abbrev Callback := Invocation → Reply

/-- Why a callback could not be registered. -/
inductive HostError where
  | registryFull (size : Nat)
deriving DecidableEq

def HostError.message : HostError → String
  | .registryFull size => s!"callback registry is full ({size} callbacks)"

/-- The callbacks of a host, numbered in the order of registration. -/
structure Registry where
  callbacks : List (String × Callback)
  limit : Nat

namespace Registry

/-- The number of callbacks that callback numbers can tell apart. -/
def capacity : Nat := UInt32.size

def empty : Registry :=
  ⟨[], capacity⟩

/-- An empty registry that takes at most `limit` callbacks. -/
def withLimit (limit : Nat) : Registry :=
  ⟨[], min limit capacity⟩

def size (registry : Registry) : Nat :=
  registry.callbacks.length

/-- Register a callback and give the value that refers to it. The name shadows earlier callbacks of
the same name. -/
def register (registry : Registry) (name : String) (callback : Callback) :
    Except HostError (Value × Registry) :=
  if registry.size < registry.limit then
    .ok (.ofCallback (UInt32.ofNat registry.size),
      { registry with callbacks := registry.callbacks ++ [(name, callback)] })
  else .error (.registryFull registry.size)

/-- The value that refers to the last callback registered under this name. -/
def lookup (registry : Registry) (name : String) : Option Value :=
  (lastIndex? (fun entry => entry.1 = name) registry.callbacks).map fun index =>
    .ofCallback (UInt32.ofNat index)

def get? (registry : Registry) (id : UInt32) : Option Callback :=
  (registry.callbacks[id.toNat]?).map (·.2)

/-- The name a callback was registered under. -/
def name? (registry : Registry) (id : UInt32) : Option String :=
  (registry.callbacks[id.toNat]?).map (·.1)

/-- Invoke the callback with this number. -/
def invoke (registry : Registry) (id : UInt32) (invocation : Invocation) : Except Fault Reply :=
  match registry.get? id with
  | some callback => .ok (callback invocation)
  | none => .error (.unknownCallback id.toUInt64)

/-- The names of the callbacks, in diagnostics. -/
def describe (registry : Registry) : String :=
  "[" ++ String.intercalate ", " (registry.callbacks.map fun entry => Text.quoted entry.1) ++ "]"

end Registry
end RegisterMachine
