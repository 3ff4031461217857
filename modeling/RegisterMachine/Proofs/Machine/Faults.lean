import RegisterMachine.Proofs.Machine.Progress

/-!
Where the faults of a step come from.

`StepFault` names every source of a fault in a step of an arbitrary machine, with the condition
under which the machine meets it.
-/
set_option autoImplicit false

namespace RegisterMachine

/-- Whether control never passes from the instruction to the one after it. -/
def Instruction.endsPath : Instruction → Bool
  | .jump _ | .leave _ => true
  | _ => false

theorem Instruction.endsPath_of_dest? {instruction : Instruction} {dest : Slot}
    (target : instruction.dest? = some dest) : instruction.endsPath = false := by
  cases instruction with
  | jump | leave => cases target
  | _ => rfl

namespace Machine

/-- The faults a step of `machine` can end in. -/
inductive StepFault (env : Environment) (machine : Machine) : Fault → Prop
  | steps {limit : Nat} : StepFault env machine (.stepLimitExceeded limit)
  | idle (empty : machine.frames = []) : StepFault env machine .noFrame
  | offCode {frame : Frame} {callers : List Frame} (running : machine.frames = frame :: callers)
      (outside : frame.function.length ≤ frame.pc) :
      StepFault env machine (.pcOutOfRange frame.pc frame.function.length)
  | refused {frame : Frame} {callers : List Frame} {instruction : Instruction} {fault : Fault}
      (running : machine.frames = frame :: callers)
      (current : frame.instruction = .ok instruction)
      (refusal : Refusal env machine.counted frame instruction fault) :
      StepFault env machine fault
  | stack {limit : Nat} : StepFault env machine (.stackLimitExceeded limit)
  | address {number : Nat} : StepFault env machine (.addressSpaceExhausted number)
  | dest {frame : Frame} {callers : List Frame} {instruction : Instruction} {dest : Slot}
      {size : Nat} (running : machine.frames = frame :: callers)
      (current : frame.instruction = .ok instruction) (target : instruction.dest? = some dest)
      (outside : machine.stack.size ≤ frame.bottom + dest.toNat) :
      StepFault env machine (.slotOutOfRange dest.toNat frame.bottom size)
  | runsOff {frame : Frame} {callers : List Frame} {instruction : Instruction}
      (running : machine.frames = frame :: callers)
      (current : frame.instruction = .ok instruction) (onward : instruction.endsPath = false)
      (outside : frame.function.length ≤ frame.pc + 1) :
      StepFault env machine (.pcOutOfRange (frame.pc + 1) frame.function.length)
  | target {frame : Frame} {callers : List Frame} {instruction : Instruction} {target : UInt16}
      (running : machine.frames = frame :: callers)
      (current : frame.instruction = .ok instruction) (named : instruction.target? = some target)
      (outside : frame.function.length ≤ target.toNat) :
      StepFault env machine (.pcOutOfRange target.toNat frame.function.length)
  | noCall {frame caller : Frame} {rest : List Frame} {instruction : Instruction}
      (running : machine.frames = frame :: caller :: rest)
      (site : caller.instruction = .ok instruction) (other : instruction.callee? = none) :
      StepFault env machine (.notACallSite caller.pc)
  | callerOffCode {frame caller : Frame} {rest : List Frame}
      (running : machine.frames = frame :: caller :: rest)
      (outside : caller.function.length ≤ caller.pc) :
      StepFault env machine (.pcOutOfRange caller.pc caller.function.length)
  | callerDest {frame caller : Frame} {rest : List Frame} {dest : Slot} {callee : FuncId}
      {args : List Slot} {size : Nat} (running : machine.frames = frame :: caller :: rest)
      (site : caller.instruction = .ok (.call dest callee args))
      (outside : min frame.bottom machine.stack.size ≤ caller.bottom + dest.toNat) :
      StepFault env machine (.slotOutOfRange dest.toNat caller.bottom size)
  | callerRunsOff {frame caller : Frame} {rest : List Frame} {dest : Slot} {callee : FuncId}
      {args : List Slot} (running : machine.frames = frame :: caller :: rest)
      (site : caller.instruction = .ok (.call dest callee args))
      (outside : caller.function.length ≤ caller.pc + 1) :
      StepFault env machine (.pcOutOfRange (caller.pc + 1) caller.function.length)

section Operations

variable {machine next : Machine} {frame : Frame} {callers : List Frame} {fault : Fault}

theorem goTo_eq_faulted {pc : Nat} (stopped : machine.goTo pc = (.faulted fault, next))
    (running : machine.frames = frame :: callers) :
    frame.function.length ≤ pc ∧ fault = .pcOutOfRange pc frame.function.length := by
  rcases Nat.lt_or_ge pc frame.function.length with inside | outside
  · rw [goTo_of_lt running inside] at stopped
    cases stopped
  · rw [goTo_of_le running outside] at stopped
    cases stopped
    exact ⟨outside, rfl⟩

theorem assign_eq_faulted {dest : Slot} {value : Value}
    (stopped : machine.assign frame dest value = (.faulted fault, next))
    (running : machine.frames = frame :: callers) :
    (machine.stack.size ≤ frame.bottom + dest.toNat ∧
        fault = .slotOutOfRange dest.toNat frame.bottom machine.stack.size) ∨
      (frame.function.length ≤ frame.pc + 1 ∧
        fault = .pcOutOfRange (frame.pc + 1) frame.function.length) := by
  rcases Nat.lt_or_ge (frame.bottom + dest.toNat) machine.stack.size with inside | outside
  · rw [assign_of_lt inside] at stopped
    exact .inr (goTo_eq_faulted stopped running)
  · rw [assign_of_le outside] at stopped
    cases stopped
    exact .inl ⟨outside, rfl⟩

theorem allocate_eq_faulted {limits : Limits} {dest : Slot}
    (stopped : machine.allocate limits frame dest = (.faulted fault, next))
    (running : machine.frames = frame :: callers) :
    (∃ number, fault = .addressSpaceExhausted number) ∨
      (∃ limit, fault = .stackLimitExceeded limit) ∨
      (∃ size, machine.stack.size ≤ frame.bottom + dest.toNat ∧
        fault = .slotOutOfRange dest.toNat frame.bottom size) ∨
      (frame.function.length ≤ frame.pc + 1 ∧
        fault = .pcOutOfRange (frame.pc + 1) frame.function.length) := by
  simp only [allocate, ValueStack.nextCell] at stopped
  split at stopped
  · rename_i exhausted
    split at exhausted
    · cases exhausted
    · cases exhausted
      cases stopped
      exact .inl ⟨_, rfl⟩
  · split at stopped
    · cases stopped
      exact .inr (.inl (Limits.checkStack_eq_error ‹_›))
    · rcases assign_eq_faulted stopped running with ⟨outside, rfl⟩ | runsOff
      · simp only [ValueStack.size_push] at outside
        exact .inr (.inr (.inl ⟨_, by omega, rfl⟩))
      · exact .inr (.inr (.inr runsOff))

theorem enter_eq_faulted {limits : Limits} {function : Function} {args : List Value}
    (stopped : machine.enter limits function args = (.faulted fault, next)) :
    ∃ limit, fault = .stackLimitExceeded limit := by
  simp only [enter] at stopped
  split at stopped
  · cases stopped
    exact Limits.checkStack_eq_error ‹_›
  · cases stopped

theorem stepFault_of_assign {env : Environment} {counted : Machine} {instruction : Instruction}
    {dest : Slot} {value : Value}
    (stopped : counted.assign frame dest value = (.faulted fault, next))
    (size : counted.stack = machine.stack) (same : counted.frames = machine.frames)
    (running : machine.frames = frame :: callers) (current : frame.instruction = .ok instruction)
    (target : instruction.dest? = some dest) : StepFault env machine fault := by
  rcases assign_eq_faulted stopped (same.trans running) with ⟨outside, rfl⟩ | ⟨outside, rfl⟩
  · exact .dest running current target (size ▸ outside)
  · exact .runsOff running current (Instruction.endsPath_of_dest? target) outside

theorem stepFault_of_leave {env : Environment} {value : Value}
    (stopped : machine.counted.leave value = (.faulted fault, next))
    (running : machine.frames = frame :: callers) : StepFault env machine fault := by
  cases callers with
  | nil =>
      have outermost : machine.counted.frames = [frame] := running
      rw [leave_outermost outermost] at stopped
      cases stopped
  | cons caller rest =>
      have nested : machine.counted.frames = frame :: caller :: rest := running
      cases site : caller.instruction with
      | error off =>
          simp only [leave, nested, site] at stopped
          cases stopped
          obtain ⟨outside, rfl⟩ := Frame.instruction_eq_error site
          exact .callerOffCode running outside
      | ok instruction =>
          cases instruction with
          | call dest callee args =>
              rw [leave_of_call nested site] at stopped
              rcases assign_eq_faulted stopped rfl with ⟨outside, rfl⟩ | ⟨outside, rfl⟩
              · exact .callerDest running site (by simpa using outside)
              · exact .callerRunsOff running site outside
          | _ =>
              simp only [leave, nested, site] at stopped
              cases stopped
              exact .noCall running site rfl

end Operations

theorem stepFault_of_step {env : Environment} {machine next : Machine} {fault : Fault}
    (stopped : step env machine = (.faulted fault, next)) : StepFault env machine fault := by
  have view := stepped env machine
  rw [stopped] at view
  generalize result : (Status.faulted fault, next) = outcome at view
  cases view with
  | limit exceeded =>
      cases result
      obtain ⟨limit, rfl⟩ := Limits.checkSteps_eq_error exceeded
      exact .steps
  | idle empty =>
      cases result
      exact .idle empty
  | offCode running off =>
      cases result
      obtain ⟨outside, rfl⟩ := Frame.instruction_eq_error off
      exact .offCode running outside
  | refused running current refusal =>
      cases result
      exact .refused running current refusal
  | performed running current planned =>
      cases planned with
      | assign target callee =>
          exact stepFault_of_assign result.symm rfl rfl running current target
      | allocate =>
          rcases allocate_eq_faulted result.symm running with
            ⟨number, rfl⟩ | ⟨limit, rfl⟩ | ⟨size, outside, rfl⟩ | ⟨outside, rfl⟩
          · exact .address
          · exact .stack
          · exact .dest running current rfl outside
          · exact .runsOff running current rfl outside
      | store addressed read =>
          obtain ⟨outside, rfl⟩ := goTo_eq_faulted result.symm running
          exact .runsOff running current rfl outside
      | jump =>
          obtain ⟨outside, rfl⟩ := goTo_eq_faulted result.symm running
          exact .target running current rfl outside
      | branch choice =>
          obtain ⟨outside, rfl⟩ := goTo_eq_faulted result.symm running
          rcases choice with rfl | rfl
          · exact .runsOff running current rfl outside
          · exact .target running current rfl outside
      | enter found arity shallow read =>
          obtain ⟨limit, rfl⟩ := enter_eq_faulted result.symm
          exact .stack
      | leave read => exact stepFault_of_leave result.symm running
      | accept => exact stepFault_of_assign result.symm rfl rfl running current rfl

end Machine
end RegisterMachine
