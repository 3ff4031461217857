import RegisterMachine.Function
import RegisterMachine.Machine.Stack

/-!
Frames: activations of functions.

A frame owns no values. Its slots are the places of the value stack from its bottom on.
-/
set_option autoImplicit false

namespace RegisterMachine

/-- One activation of a function: where its slots begin and which instruction it is at. -/
structure Frame where
  bottom : Nat
  function : Function
  pc : Nat

namespace Frame

/-- A frame at instruction `pc`, which must be one of the function's unless it has none. -/
def make (bottom : Nat) (function : Function) (pc : Nat) : Except Fault Frame :=
  if function.length ≠ 0 ∧ function.length ≤ pc then .error (.pcOutOfRange pc function.length)
  else .ok ⟨bottom, function, pc⟩

/-- Whether two frames run the same function at the same instruction over the same slots. -/
def same (a b : Frame) : Bool :=
  a.bottom = b.bottom && a.function.same b.function && a.pc = b.pc

/-- The instruction the frame is at. -/
def instruction (frame : Frame) : Except Fault Instruction :=
  match frame.function.code[frame.pc]? with
  | some instruction => .ok instruction
  | none => .error (.pcOutOfRange frame.pc frame.function.length)

/-- Move to the instruction `pc`. -/
def jump (frame : Frame) (pc : Nat) : Except Fault Frame :=
  if pc < frame.function.length then .ok { frame with pc := pc }
  else .error (.pcOutOfRange pc frame.function.length)

/-- Move to the next instruction. Running off the end of a function is a fault. -/
def advance (frame : Frame) : Except Fault Frame :=
  frame.jump (frame.pc + 1)

/-- The absolute index of a slot. -/
def place (frame : Frame) (stack : ValueStack) (slot : Nat) : Except Fault Nat :=
  if frame.bottom + slot < stack.size then .ok (frame.bottom + slot)
  else .error (.slotOutOfRange slot frame.bottom stack.size)

/-- The value of a slot. -/
def read (frame : Frame) (stack : ValueStack) (slot : Nat) : Except Fault Value := do
  stack.get (← frame.place stack slot)

/-- Write a slot. -/
def write (frame : Frame) (stack : ValueStack) (slot : Nat) (value : Value) :
    Except Fault ValueStack := do
  stack.set (← frame.place stack slot) value

end Frame
end RegisterMachine
