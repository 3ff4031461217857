import RegisterMachine.Host
import RegisterMachine.Machine.Frame

/-!
The state of a machine and the surroundings it runs in.
-/
set_option autoImplicit false

namespace RegisterMachine

/-- Optional bounds on what a run may use. -/
structure Limits where
  /-- The number of frames active at once. -/
  maxCallDepth : Option Nat
  /-- The length of the value stack. -/
  maxStackSize : Option Nat
  /-- The number of instructions executed. -/
  maxSteps : Option Nat
deriving DecidableEq

namespace Limits

/-- No bounds at all. -/
def unlimited : Limits :=
  ⟨none, none, none⟩

/-- Whether another frame may be entered at this depth. -/
def checkDepth (limits : Limits) (frames : List Frame) : Except Fault Unit :=
  match limits.maxCallDepth with
  | some limit => if frames.length < limit then .ok () else .error (.callDepthExceeded limit)
  | none => .ok ()

/-- Whether the stack may have this length. -/
def checkStack (limits : Limits) (stack : ValueStack) : Except Fault Unit :=
  match limits.maxStackSize with
  | some limit => if stack.size ≤ limit then .ok () else .error (.stackLimitExceeded limit)
  | none => .ok ()

/-- Whether the step with this number may be taken. -/
def checkSteps (limits : Limits) (steps : Nat) : Except Fault Unit :=
  match limits.maxSteps with
  | some limit => if steps ≤ limit then .ok () else .error (.stepLimitExceeded limit)
  | none => .ok ()

end Limits

/-- What a machine runs in: its limits and, if present, the host's callbacks and globals. -/
structure Environment where
  limits : Limits
  host : Option Registry
  globals : Option Globals

/-- The state of a machine. The running frame is the first of `frames`. What callbacks print is
kept in `output`. -/
structure Machine where
  stack : ValueStack
  frames : List Frame
  steps : Nat
  output : Array String

/-- How a machine stands after a step. -/
inductive Status where
  | running
  /-- The outermost function returned. -/
  | returned (value : Value)
  | faulted (fault : Fault)
deriving DecidableEq

namespace Machine

/-- A machine at rest. -/
def idle : Machine :=
  ⟨.empty, [], 0, #[]⟩

def depth (machine : Machine) : Nat :=
  machine.frames.length

/-- The running frame. -/
def frame? (machine : Machine) : Option Frame :=
  machine.frames.head?

/-- Drop all values and frames and start counting anew. What was printed stays. -/
def reset (machine : Machine) : Machine :=
  { machine with stack := .empty, frames := [], steps := 0 }

end Machine
end RegisterMachine
