import RegisterMachine.Module.Reachable

/-!
Static checks of code.

Every destination is a local, and no slot is the destination of two instructions. Every call names
a function of the module and passes as many arguments as it takes.
-/
set_option autoImplicit false

namespace RegisterMachine

/-- A rule that a function breaks. -/
inductive VerifyError where
  /-- An argument slot is a destination. -/
  | argumentAssigned (pc : Nat) (slot argCount : Slot)
  /-- A slot is a destination for the second time. -/
  | reassigned (slot : Slot) (first second : Nat)
  | unknownCallee (pc : Nat) (callee : FuncId)
  | callArity (pc : Nat) (callee : FuncId) (expected : Slot) (found : Nat)
  /-- A function that is declared only. -/
  | undefined (id : FuncId)
  | unknownFunction (id : FuncId)
deriving DecidableEq

def VerifyError.message : VerifyError → String
  | .argumentAssigned pc slot argCount =>
    s!"assignment to argument slot {slot.toNat} at pc={pc} (function takes {argCount.toNat} arguments)"
  | .reassigned slot first second =>
    s!"slot {slot.toNat} assigned twice: first at pc={first}, again at pc={second}"
  | .unknownCallee pc callee => s!"call at pc={pc} names {callee.text}, which is not in the module"
  | .callArity pc callee expected found =>
    s!"call at pc={pc} passes {found} arguments to {callee.text}, which takes {expected.toNat}"
  | .undefined id => s!"{id.text} is declared but has no body"
  | .unknownFunction id => s!"unknown function {id.text}"

namespace Module

/-- The rules for calls, at the instruction with index `pc`. -/
def checkCall (module : Module) (pc : Nat) : Instruction → Except VerifyError Unit
  | .call _ callee args =>
    match module.get? callee with
    | none => .error (.unknownCallee pc callee)
    | some definition =>
      if args.length = definition.argCount.toNat then .ok ()
      else .error (.callArity pc callee definition.argCount args.length)
  | _ => .ok ()

/-- The slots that have been assigned, each with the index of the instruction that assigns it. -/
abbrev Assignments := List (Slot × Nat)

/-- The rules for destinations, at the instruction with index `pc` behind those that made the
assignments. The destination is entered among them. -/
def checkDest (argCount : Slot) (assigned : Assignments) (pc : Nat) (instruction : Instruction) :
    Except VerifyError Assignments :=
  match instruction.dest? with
  | none => .ok assigned
  | some slot =>
    if slot < argCount then .error (.argumentAssigned pc slot argCount)
    else match assigned.lookup slot with
      | some first => .error (.reassigned slot first pc)
      | none => .ok ((slot, pc) :: assigned)

/-- All rules, at the instruction with index `pc`. -/
def checkInstruction (module : Module) (argCount : Slot) (assigned : Assignments) (pc : Nat)
    (instruction : Instruction) : Except VerifyError Assignments := do
  module.checkCall pc instruction
  checkDest argCount assigned pc instruction

/-- The rules for the instructions `code`, which begin at index `pc` of the function. -/
def checkCode (module : Module) (argCount : Slot) (assigned : Assignments) (pc : Nat) :
    List Instruction → Except VerifyError Unit
  | [] => .ok ()
  | instruction :: rest => do
    let assigned ← module.checkInstruction argCount assigned pc instruction
    module.checkCode argCount assigned (pc + 1) rest

/-- Check one function. The error is the first one in the order of the code. -/
def check (module : Module) (id : FuncId) : Except VerifyError Unit :=
  match module.get? id with
  | none => .error (.unknownFunction id)
  | some definition =>
    if definition.isDefined then module.checkCode definition.argCount [] 0 definition.code
    else .error (.undefined id)

/-- The functions called by `id`; none if there is no such function. -/
def calleesOf (module : Module) (id : FuncId) : List FuncId :=
  match module.get? id with
  | some definition => definition.callees
  | none => []

theorem mem_ids_of_check_eq_ok {module : Module} {id : FuncId}
    (passed : module.check id = .ok ()) : id ∈ module.ids := by
  cases present : module.get? id with
  | none => simp [check, present] at passed
  | some definition => exact mem_ids_of_get?_eq_some present

/-- Depth-first check: `checked` are the functions that passed, `pending` those still to check. -/
def checkFrom (module : Module) (checked : List FuncId) : List FuncId → Except VerifyError Unit
  | [] => .ok ()
  | id :: pending =>
    if _seen : id ∈ checked then module.checkFrom checked pending
    else match _passed : module.check id with
      | .error error => .error error
      | .ok () => module.checkFrom (id :: checked) ((module.calleesOf id).reverse ++ pending)
termination_by pending => (module.remaining checked, pending.length)
decreasing_by
  · exact Prod.Lex.right _ (by simp)
  · exact Prod.Lex.left _ _ (remaining_lt (mem_ids_of_check_eq_ok _passed) _seen
      (fun other inside => by simp [inside]) (by simp))

theorem checkFrom_of_checked {module : Module} {checked pending : List FuncId} {id : FuncId}
    (seen : id ∈ checked) :
    module.checkFrom checked (id :: pending) = module.checkFrom checked pending := by
  rw [checkFrom, dif_pos seen]

theorem checkFrom_of_error {module : Module} {checked pending : List FuncId} {id : FuncId}
    {error : VerifyError} (new : id ∉ checked) (failed : module.check id = .error error) :
    module.checkFrom checked (id :: pending) = .error error := by
  rw [checkFrom, dif_neg new]
  split <;> simp_all

theorem checkFrom_of_ok {module : Module} {checked pending : List FuncId} {id : FuncId}
    (new : id ∉ checked) (passed : module.check id = .ok ()) :
    module.checkFrom checked (id :: pending) =
      module.checkFrom (id :: checked) ((module.calleesOf id).reverse ++ pending) := by
  rw [checkFrom, dif_neg new]
  split <;> simp_all

/-- Check `entry` and every function reachable from it, each once. Of two callees, the one called
later in the code is checked first. -/
def checkReachable (module : Module) (entry : FuncId) : Except VerifyError Unit :=
  module.checkFrom [] [entry]

end Module

namespace Function

/-- Check this function. -/
def verify (function : Function) : Except VerifyError Unit :=
  function.module.check function.id

/-- Check this function and every function reachable from it. -/
def verifyAll (function : Function) : Except VerifyError Unit :=
  function.module.checkReachable function.id

end Function
end RegisterMachine
