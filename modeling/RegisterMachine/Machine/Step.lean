import RegisterMachine.Machine.Basic

/-!
Execution of one instruction.

A step has two parts. First the instruction is turned into an `Action`, which reads the machine and
changes nothing; then the action is performed. A fault in the first part leaves stack and frames
as they were, while an action that faults leaves what it had done up to then.
-/
set_option autoImplicit false

namespace RegisterMachine

/-- What an instruction asks of the machine, with all operands read. -/
inductive Action where
  /-- Write a slot. -/
  | assign (dest : Slot) (value : Value)
  /-- Append a cell and write its address to a slot. -/
  | allocate (dest : Slot)
  /-- Write a cell. -/
  | store (cell : Cell) (value : Value)
  /-- Continue at an instruction. -/
  | goTo (pc : Nat)
  /-- Activate a function. -/
  | enter (callee : Function) (args : List Value)
  /-- Return from the running function. -/
  | leave (value : Value)
  /-- Take over what a callback printed, and write its value to a slot. -/
  | accept (dest : Slot) (reply : Reply)

namespace Numeric

/-- The value itself if it is of this kind. -/
def require : Numeric → Value → Except Fault Value
  | .int32, .int32 value => .ok (.int32 value)
  | .int32, other => .error (.typeMismatch .int32 other.kind)
  | .double, .double value => .ok (.double value)
  | .double, other => .error (.typeMismatch .double other.kind)

end Numeric

/-- The value itself if the access lets it through. -/
def Access.require : Access → Value → Except Fault Value
  | .any, value => .ok value
  | .only kind, value => kind.require value

namespace Frame

/-- The int32 in a slot. -/
def readInt32 (frame : Frame) (stack : ValueStack) (slot : Slot) : Except Fault Int32 := do
  match ← frame.read stack slot.toNat with
  | .int32 value => .ok value
  | other => .error (.typeMismatch .int32 other.kind)

/-- The cell addressed by a slot. -/
def readCell (frame : Frame) (stack : ValueStack) (slot : Slot) : Except Fault Cell := do
  stack.cell (← frame.read stack slot.toNat)

/-- The number of the callback that a slot refers to. -/
def readCallback (frame : Frame) (stack : ValueStack) (slot : Slot) : Except Fault UInt32 := do
  let value ← frame.read stack slot.toNat
  match value.callback? with
  | some id => .ok id
  | none => .error (.typeMismatch .nativeCallback value.kind)

end Frame

namespace Environment

/-- The function that a call enters, with the values of its arguments. -/
def planCall (env : Environment) (machine : Machine) (frame : Frame) (callee : FuncId)
    (args : List Slot) : Except Fault Action :=
  match frame.function.callee? callee with
  | none => .error (.unknownFunction callee)
  | some function =>
    if args.length ≠ function.argCount.toNat then
      .error (.argumentCount function.argCount.toNat args.length)
    else do
      env.limits.checkDepth machine.frames
      let values ← args.mapM fun index => machine.stack.get index.toNat
      return .enter function values

/-- The invocation of a callback. The registry is asked for before the arguments are read, and
for the callback afterwards. -/
def planExecute (env : Environment) (machine : Machine) (frame : Frame) (dest callee : Slot)
    (args : List Slot) : Except Fault Action := do
  let id ← frame.readCallback machine.stack callee
  match env.host with
  | none => .error (.unknownCallback id.toUInt64)
  | some registry =>
    let values ← args.mapM fun slot => frame.read machine.stack slot.toNat
    let reply ← registry.invoke id ⟨values, env.globals⟩
    return .accept dest reply

/-- What an instruction asks of the machine. -/
def plan (env : Environment) (machine : Machine) (frame : Frame) :
    Instruction → Except Fault Action
  | .allocate _ dest => .ok (.allocate dest)
  | .store access x y => do
    let cell ← frame.readCell machine.stack x
    let value ← access.require (← frame.read machine.stack y.toNat)
    return .store cell value
  | .load access dest x => do
    let cell ← frame.readCell machine.stack x
    let value ← access.require (← machine.stack.load cell)
    return .assign dest value
  | .equal dest x y => do
    let a ← frame.readInt32 machine.stack x
    let b ← frame.readInt32 machine.stack y
    return .assign dest (.int32 (if a = b then 1 else 0))
  | .constant dest value => .ok (.assign dest value)
  | .constantInt32 dest value => .ok (.assign dest (.int32 value))
  | .constantDouble dest value => .ok (.assign dest (.double value))
  | .extract kind dest x => do
    let value ← kind.require (← frame.read machine.stack x.toNat)
    return .assign dest value
  | .jump target => .ok (.goTo target.toNat)
  | .branch x target => do
    let condition ← frame.readInt32 machine.stack x
    return .goTo (if condition = 0 then frame.pc + 1 else target.toNat)
  | .add dest x y => do
    let a ← frame.readInt32 machine.stack x
    let b ← frame.readInt32 machine.stack y
    return .assign dest (.int32 (a + b))
  | .call _ callee args => env.planCall machine frame callee args
  | .leave x => do return .leave (← frame.read machine.stack x.toNat)
  | .execute dest callee args => env.planExecute machine frame dest callee args

end Environment

namespace Machine

/-- Move the running frame to the instruction `pc`. -/
def goTo (machine : Machine) (pc : Nat) : Status × Machine :=
  match machine.frames with
  | [] => (.faulted .noFrame, machine)
  | frame :: callers =>
    match frame.jump pc with
    | .ok moved => (.running, { machine with frames := moved :: callers })
    | .error fault => (.faulted fault, machine)

/-- Write a slot of `frame`, the running frame, and move on. -/
def assign (machine : Machine) (frame : Frame) (dest : Slot) (value : Value) : Status × Machine :=
  match frame.place machine.stack dest.toNat with
  | .ok index => { machine with stack := machine.stack.put index value }.goTo (frame.pc + 1)
  | .error fault => (.faulted fault, machine)

/-- Append a cell, write its address to a slot of the running frame, and move on. -/
def allocate (machine : Machine) (limits : Limits) (frame : Frame) (dest : Slot) :
    Status × Machine :=
  match machine.stack.nextCell with
  | .error fault => (.faulted fault, machine)
  | .ok cell =>
    let grown := { machine with stack := machine.stack.push .undefined }
    match limits.checkStack grown.stack with
    | .error fault => (.faulted fault, grown)
    | .ok () => grown.assign frame dest cell.toValue

/-- Activate a function: its slots go on the stack, and its frame runs from its first
instruction. -/
def enter (machine : Machine) (limits : Limits) (function : Function) (args : List Value) :
    Status × Machine :=
  let bottom := machine.stack.size
  let grown := { machine with stack := machine.stack.pushWindow args function.numLocals.toNat }
  match limits.checkStack grown.stack with
  | .error fault => (.faulted fault, grown)
  | .ok () => (.running, { grown with frames := ⟨bottom, function, 0⟩ :: grown.frames })

/-- Return from the running function. Its slots and everything above them go. Outermost, the value
is the result; otherwise it goes to the destination of the call that is waiting for it. -/
def leave (machine : Machine) (value : Value) : Status × Machine :=
  match machine.frames with
  | [] => (.faulted .noFrame, machine)
  | frame :: callers =>
    let popped := { machine with stack := machine.stack.truncate frame.bottom, frames := callers }
    match callers with
    | [] => (.returned value, popped)
    | caller :: _ =>
      match caller.instruction with
      | .ok (.call dest _ _) => popped.assign caller dest value
      | .ok _ => (.faulted (.notACallSite caller.pc), popped)
      | .error fault => (.faulted fault, popped)

/-- Perform an action for `frame`, the running frame. -/
def perform (machine : Machine) (limits : Limits) (frame : Frame) : Action → Status × Machine
  | .assign dest value => machine.assign frame dest value
  | .allocate dest => machine.allocate limits frame dest
  | .store cell value =>
    { machine with stack := machine.stack.put cell.address value }.goTo (frame.pc + 1)
  | .goTo pc => machine.goTo pc
  | .enter callee args => machine.enter limits callee args
  | .leave value => machine.leave value
  | .accept dest reply =>
    { machine with output := machine.output ++ reply.lines }.assign frame dest reply.value

/-- Execute one instruction. Every attempt counts as a step, also one that faults. -/
def step (env : Environment) (machine : Machine) : Status × Machine :=
  let counted := { machine with steps := machine.steps + 1 }
  match env.limits.checkSteps counted.steps with
  | .error fault => (.faulted fault, counted)
  | .ok () =>
    match counted.frames with
    | [] => (.faulted .noFrame, counted)
    | frame :: _ =>
      match frame.instruction with
      | .error fault => (.faulted fault, counted)
      | .ok instruction =>
        match env.plan counted frame instruction with
        | .error fault => (.faulted fault, counted)
        | .ok action => counted.perform env.limits frame action

/-- Forget the previous run and enter `function`. The call depth is not checked for the outermost
function. -/
def start (limits : Limits) (machine : Machine) (function : Function) (args : List Value) :
    Status × Machine :=
  let rested := machine.reset
  if args.length = function.argCount.toNat then rested.enter limits function args
  else (.faulted (.argumentCount function.argCount.toNat args.length), rested)

/-- Execute instructions until the outermost function returns or something faults, but at most
`fuel` of them. -/
def run (env : Environment) : Nat → Machine → Status × Machine
  | 0, machine => (.running, machine)
  | fuel + 1, machine =>
    match step env machine with
    | (.running, next) => run env fuel next
    | ended => ended

/-- Run `function` from the start, for at most `fuel` instructions. -/
def interpret (env : Environment) (fuel : Nat) (machine : Machine) (function : Function)
    (args : List Value) : Status × Machine :=
  match start env.limits machine function args with
  | (.running, started) => run env fuel started
  | ended => ended

end Machine
end RegisterMachine
