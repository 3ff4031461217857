import RegisterMachine.Instruction

/-!
Faults: what stops a running machine.
-/
set_option autoImplicit false

namespace RegisterMachine

/-- What an instruction wants to find in a slot or cell. -/
inductive Expectation where
  | int32
  | double
  | cellAddress
  | nativeCallback
deriving DecidableEq

def Expectation.name : Expectation → String
  | .int32 => "int32"
  | .double => "double"
  | .cellAddress => "cell address"
  | .nativeCallback => "native callback"

/-- The reason a machine stopped without a result. -/
inductive Fault where
  | slotOutOfRange (slot bottom length : Nat)
  | indexOutOfRange (index length : Nat)
  | invalidCell (address : Int) (length : Nat)
  | typeMismatch (expected : Expectation) (found : Kind)
  | pcOutOfRange (pc length : Nat)
  | argumentCount (expected found : Nat)
  /-- A function returned to an instruction that is no call. -/
  | notACallSite (pc : Nat)
  | unknownCallback (word : UInt64)
  | noFrame
  | callDepthExceeded (limit : Nat)
  | stackLimitExceeded (limit : Nat)
  /-- The stack is too long for an int32 to address another cell. -/
  | addressSpaceExhausted (address : Nat)
  | unknownFunction (id : FuncId)
  | stepLimitExceeded (limit : Nat)
deriving DecidableEq

def Fault.message : Fault → String
  | .slotOutOfRange slot bottom length =>
    s!"slot {slot} out of range (frame bottom {bottom}, stack length {length})"
  | .indexOutOfRange index length =>
    s!"absolute stack index {index} out of range (stack length {length})"
  | .invalidCell address length => s!"invalid cell address {address} (stack length {length})"
  | .typeMismatch expected found => s!"type error: expected {expected.name}, got {found.name}"
  | .pcOutOfRange pc length => s!"program counter {pc} outside function of length {length}"
  | .argumentCount expected found => s!"function takes {expected} arguments, got {found}"
  | .notACallSite pc => s!"instruction at pc={pc} is not a call site"
  | .unknownCallback word => s!"unknown native callback {word.toNat}"
  | .noFrame => "no active frame"
  | .callDepthExceeded limit => s!"call depth limit exceeded ({limit})"
  | .stackLimitExceeded limit => s!"stack size limit exceeded ({limit})"
  | .addressSpaceExhausted address =>
    s!"cell address space exhausted: {address} is not representable as int32"
  | .unknownFunction id => s!"call to {id.text}, which is not in the module"
  | .stepLimitExceeded limit => s!"execution step limit exceeded ({limit})"

end RegisterMachine
