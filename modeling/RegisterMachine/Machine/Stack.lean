import RegisterMachine.Fault

/-!
The value stack.

All frames of a machine share one stack of values. A cell is a place on it that code addresses by
number, in an int32.
-/
set_option autoImplicit false

namespace RegisterMachine

/-- A place on the value stack. -/
structure Cell where
  address : Nat
deriving DecidableEq

/-- The value by which code addresses a cell. -/
def Cell.toValue (cell : Cell) : Value :=
  .int32 (Int32.ofNat cell.address)

/-- The values of all frames and cells, from the bottom up. -/
structure ValueStack where
  values : Array Value
deriving DecidableEq

namespace ValueStack

def empty : ValueStack :=
  ⟨#[]⟩

def size (stack : ValueStack) : Nat :=
  stack.values.size

/-- The value at an absolute index. -/
def get (stack : ValueStack) (index : Nat) : Except Fault Value :=
  match stack.values[index]? with
  | some value => .ok value
  | none => .error (.indexOutOfRange index stack.size)

/-- The stack with another value at an absolute index; unchanged if there is no such index. -/
def put (stack : ValueStack) (index : Nat) (value : Value) : ValueStack :=
  ⟨stack.values.setIfInBounds index value⟩

/-- Write a value at an absolute index. -/
def set (stack : ValueStack) (index : Nat) (value : Value) : Except Fault ValueStack :=
  if index < stack.size then .ok (stack.put index value)
  else .error (.indexOutOfRange index stack.size)

def push (stack : ValueStack) (value : Value) : ValueStack :=
  ⟨stack.values.push value⟩

/-- Append `count` undefined values. -/
def grow (stack : ValueStack) (count : Nat) : ValueStack :=
  ⟨stack.values ++ Array.replicate count .undefined⟩

/-- Append the slots of a call: its arguments and its locals, which are undefined. -/
def pushWindow (stack : ValueStack) (args : List Value) (numLocals : Nat) : ValueStack :=
  grow ⟨stack.values ++ args⟩ numLocals

/-- Drop every value from index `size` on. -/
def truncate (stack : ValueStack) (size : Nat) : ValueStack :=
  ⟨stack.values.shrink size⟩

/-- The cell that would be allocated next. Its address has to fit an int32. -/
def nextCell (stack : ValueStack) : Except Fault Cell :=
  if stack.size < 0x80000000 then .ok ⟨stack.size⟩ else .error (.addressSpaceExhausted stack.size)

/-- Append an undefined cell. -/
def allocate (stack : ValueStack) : Except Fault (Cell × ValueStack) := do
  let cell ← stack.nextCell
  return (cell, stack.push .undefined)

/-- The cell that a value addresses. -/
def cell (stack : ValueStack) (address : Value) : Except Fault Cell :=
  match address with
  | .int32 address =>
    if 0 ≤ address.toInt ∧ address.toInt < stack.size then .ok ⟨address.toInt.toNat⟩
    else .error (.invalidCell address.toInt stack.size)
  | other => .error (.typeMismatch .cellAddress other.kind)

/-- The value of a cell. -/
def load (stack : ValueStack) (cell : Cell) : Except Fault Value :=
  stack.get cell.address

/-- Write a cell. -/
def store (stack : ValueStack) (cell : Cell) (value : Value) : Except Fault ValueStack :=
  stack.set cell.address value

end ValueStack
end RegisterMachine
