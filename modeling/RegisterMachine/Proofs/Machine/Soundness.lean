import RegisterMachine.Proofs.Machine.Consistency
import RegisterMachine.Proofs.Module.Rules

/-!
What verification promises a run.

A running machine only ever activates functions that calls lead to from the one it was started
with. If these are verified, every call finds its function and passes as many arguments as it takes.
If moreover they keep to their own slots and code, what is left are the faults that depend on values
and limits.
-/
set_option autoImplicit false

namespace RegisterMachine

namespace Function

theorem get?_id (function : Function) :
    function.module.get? function.id = some function.definition := by
  simp [Module.get?, definition, function.inModule]

theorem get?_of_callee? {caller callee : Function} {id : FuncId}
    (found : caller.callee? id = some callee) :
    caller.module.get? id = some callee.definition := by
  obtain ⟨-, sameModule, rfl⟩ := callee?_eq_some found
  rw [← sameModule]
  exact callee.get?_id

theorem get?_eq_none_of_callee? {caller : Function} {id : FuncId}
    (missing : caller.callee? id = none) : caller.module.get? id = none := by
  unfold callee? of? at missing
  split at missing
  · cases missing
  · exact List.getElem?_eq_none (Nat.le_of_not_lt ‹_›)

/-- Calls lead from `function` to `other`, a function of the same module. -/
structure Reaches (function other : Function) : Prop where
  sameModule : other.module = function.module
  connected : function.module.Connected function.id other.id

theorem Reaches.refl (function : Function) : function.Reaches function :=
  ⟨rfl, .refl⟩

theorem Reaches.call {function caller callee : Function} {id : FuncId}
    (reaches : function.Reaches caller) (calls : id ∈ caller.definition.callees)
    (found : caller.callee? id = some callee) : function.Reaches callee := by
  obtain ⟨-, sameModule, rfl⟩ := callee?_eq_some found
  refine ⟨sameModule.trans reaches.sameModule, reaches.connected.tail ?_⟩
  rw [Module.Calls, ← reaches.sameModule, Module.calleesOf_of_get? caller.get?_id]
  exact calls

/-- Verification covers every function that the entry reaches. -/
theorem Reaches.check {function other : Function} (reaches : function.Reaches other)
    (verified : function.verifyAll = .ok ()) : other.module.check other.id = .ok () := by
  rw [reaches.sameModule]
  exact Module.check_of_connected verified reaches.connected

end Function

namespace Frame

theorem mem_code_of_instruction {frame : Frame} {instruction : Instruction}
    (current : frame.instruction = .ok instruction) :
    instruction ∈ frame.function.definition.code :=
  List.mem_of_getElem? (instruction_eq_ok_iff.mp current)

theorem mem_callees_of_instruction {frame : Frame} {dest : Slot} {callee : FuncId}
    {args : List Slot} (current : frame.instruction = .ok (.call dest callee args)) :
    callee ∈ frame.function.definition.callees :=
  List.mem_filterMap.mpr ⟨_, mem_code_of_instruction current, rfl⟩

end Frame

namespace Machine

/-- The machine runs a function that `function` reaches, and so does every frame that waits. -/
structure RunsWithin (function : Function) (machine : Machine) : Prop where
  busy : machine.frames ≠ []
  reaches : ∀ frame ∈ machine.frames, function.Reaches frame.function

namespace RunsWithin

variable {function : Function} {machine : Machine}

theorem progress {env : Environment} {next : Machine} (within : machine.RunsWithin function)
    (taken : Progress env machine next) : next.RunsWithin function := by
  have reaches := within.reaches
  cases taken with
  | assigned running | allocated running | stored running | jumped running =>
      refine ⟨by simp, ?_⟩
      rw [running] at reaches
      simpa using reaches
  | entered running current found =>
      rw [running] at reaches
      refine ⟨by simp, ?_⟩
      intro frame member
      rcases List.mem_cons.mp member with rfl | member
      · exact (reaches _ (by simp)).call (Frame.mem_callees_of_instruction current) found
      · exact reaches frame member
  | returned running =>
      rw [running] at reaches
      have waiting := reaches _ (List.mem_cons_of_mem _ List.mem_cons_self)
      refine ⟨by simp, ?_⟩
      intro frame member
      rcases List.mem_cons.mp member with rfl | member
      · exact waiting
      · exact reaches frame (by simp [member])

theorem of_interpret {env : Environment} {count : Nat} {before : Machine} {args : List Value}
    (ran : before.interpret env count function args = (.running, machine)) :
    machine.RunsWithin function := by
  obtain ⟨started, entered, ran⟩ := interpret_eq_running.mp ran
  obtain ⟨-, -, rfl⟩ := start_eq_running entered
  refine run_preserves (fun before after within taken => within.progress taken) ran ⟨by simp, ?_⟩
  simpa using Function.Reaches.refl function

theorem reaches_running {frame : Frame} {callers : List Frame}
    (within : machine.RunsWithin function) (running : machine.frames = frame :: callers) :
    function.Reaches frame.function :=
  within.reaches frame (by simp [running])

end RunsWithin
end Machine

/-! ## Code that keeps to itself -/

/-- The last instruction passes control to none after it, jumps and branches lead to instructions
of the function, and all slots belong to its activations. -/
structure Definition.SelfContained (definition : Definition) : Prop where
  ends : ∃ last, definition.code.getLast? = some last ∧ last.endsPath = true
  targets : ∀ instruction ∈ definition.code, ∀ target ∈ instruction.target?,
    target.toNat < definition.code.length
  slots : ∀ instruction ∈ definition.code, ∀ slot ∈ instruction.frameSlots,
    slot.toNat < definition.frameSize

/-- The test that a definition is self-contained. -/
def Definition.isSelfContained (definition : Definition) : Bool :=
  definition.code.getLast?.any Instruction.endsPath &&
    definition.code.all fun instruction =>
      instruction.target?.all (·.toNat < definition.code.length) &&
        instruction.frameSlots.all (·.toNat < definition.frameSize)

theorem Definition.isSelfContained_iff {definition : Definition} :
    definition.isSelfContained = true ↔ definition.SelfContained := by
  simp only [isSelfContained, Bool.and_eq_true, Option.any_eq_true, List.all_eq_true,
    Option.all_eq_true, decide_eq_true_eq]
  constructor
  · rintro ⟨ends, inside⟩
    exact ⟨ends, fun instruction member => (inside instruction member).1,
      fun instruction member => (inside instruction member).2⟩
  · rintro ⟨ends, targets, slots⟩
    exact ⟨ends, fun instruction member =>
      ⟨targets instruction member, slots instruction member⟩⟩

instance (definition : Definition) : Decidable definition.SelfContained :=
  decidable_of_iff _ Definition.isSelfContained_iff

namespace Frame

variable {frame : Frame} {instruction : Instruction}

theorem pc_lt_of_selfContained (contained : frame.function.definition.SelfContained)
    (inCode : frame.InCode) : frame.pc < frame.function.length := by
  rcases inCode with inside | ⟨empty, -⟩
  · exact inside
  · obtain ⟨last, ends, -⟩ := contained.ends
    have nothing : frame.function.definition.code = [] := List.eq_nil_of_length_eq_zero empty
    rw [nothing] at ends
    cases ends

theorem next_lt_of_selfContained (contained : frame.function.definition.SelfContained)
    (current : frame.instruction = .ok instruction) (onward : instruction.endsPath = false) :
    frame.pc + 1 < frame.function.length := by
  obtain ⟨last, ends, stops⟩ := contained.ends
  have here : frame.function.definition.code[frame.pc]? = some instruction :=
    instruction_eq_ok_iff.mp current
  have inside : frame.pc < frame.function.length := (List.getElem?_eq_some_iff.mp here).1
  rcases Nat.lt_or_ge (frame.pc + 1) frame.function.length with more | final
  · exact more
  · have atEnd : frame.function.definition.code.length - 1 = frame.pc := by
      have same : frame.function.definition.code.length = frame.function.length := rfl
      omega
    rw [List.getLast?_eq_getElem?, atEnd, here] at ends
    cases ends
    rw [stops] at onward
    cases onward

theorem target_lt_of_selfContained {target : UInt16}
    (contained : frame.function.definition.SelfContained)
    (current : frame.instruction = .ok instruction) (named : instruction.target? = some target) :
    target.toNat < frame.function.length :=
  contained.targets instruction (mem_code_of_instruction current) target named

theorem slot_lt_of_selfContained {slot : Slot}
    (contained : frame.function.definition.SelfContained)
    (current : frame.instruction = .ok instruction) (mentioned : slot ∈ instruction.frameSlots) :
    slot.toNat < frame.function.frameSize :=
  contained.slots instruction (mem_code_of_instruction current) slot mentioned

end Frame

/-- The calls of a checked function are refused for other reasons than who is called. -/
theorem Refusal.callee_found {env : Environment} {machine : Machine} {frame : Frame}
    {instruction : Instruction} {fault : Fault}
    (refusal : Refusal env machine frame instruction fault)
    (current : frame.instruction = .ok instruction)
    (passed : frame.function.module.check frame.function.id = .ok ()) :
    (∀ id, fault ≠ .unknownFunction id) ∧
      ∀ expected found, fault ≠ .argumentCount expected found := by
  cases refusal with
  | callee missing =>
      obtain ⟨target, present, -⟩ := (Module.lawful_of_check passed frame.function.get?_id).calls
        _ _ _ (Frame.mem_code_of_instruction current)
      rw [Function.get?_eq_none_of_callee? missing] at present
      cases present
  | arity found differs =>
      obtain ⟨target, present, arity⟩ :=
        (Module.lawful_of_check passed frame.function.get?_id).calls
          _ _ _ (Frame.mem_code_of_instruction current)
      rw [Function.get?_of_callee? found] at present
      cases present
      exact absurd arity differs
  | _ => simp

namespace Machine

/-- The faults that no check of the code rules out: they depend on values, on what the host has
registered, and on limits. -/
inductive OrdinaryFault (machine : Machine) : Fault → Prop
  | kind {expected : Expectation} {found : Kind} :
      OrdinaryFault machine (.typeMismatch expected found)
  | cell {address : Int} {length : Nat} : OrdinaryFault machine (.invalidCell address length)
  | argument {frame : Frame} {callers : List Frame} {dest : Slot} {callee : FuncId}
      {args : List Slot} {index : Slot} {length : Nat}
      (running : machine.frames = frame :: callers)
      (current : frame.instruction = .ok (.call dest callee args)) (passed : index ∈ args) :
      OrdinaryFault machine (.indexOutOfRange index.toNat length)
  | callback {word : UInt64} : OrdinaryFault machine (.unknownCallback word)
  | address {number : Nat} : OrdinaryFault machine (.addressSpaceExhausted number)
  | depth {limit : Nat} : OrdinaryFault machine (.callDepthExceeded limit)
  | stack {limit : Nat} : OrdinaryFault machine (.stackLimitExceeded limit)
  | steps {limit : Nat} : OrdinaryFault machine (.stepLimitExceeded limit)

section Faults

variable {env : Environment} {function : Function} {machine : Machine} {fault : Fault}

/-- Verified code always finds what it calls and where it came from. -/
theorem StepFault.calls_sound (stopped : StepFault env machine fault)
    (consistent : machine.Consistent) (within : machine.RunsWithin function)
    (verified : function.verifyAll = .ok ()) :
    (∀ id, fault ≠ .unknownFunction id) ∧
      (∀ expected found, fault ≠ .argumentCount expected found) ∧
      (∀ pc, fault ≠ .notACallSite pc) ∧ fault ≠ .noFrame := by
  have site := stopped.ne_notACallSite consistent
  cases stopped with
  | idle empty => exact absurd empty within.busy
  | refused running current refusal =>
      have passed := (within.reaches_running running).check verified
      obtain ⟨callee, arity⟩ := refusal.callee_found current passed
      refine ⟨callee, arity, site, ?_⟩
      rintro rfl
      cases refusal
  | noCall running => exact absurd rfl (site _)
  | _ => simp

/-- The operands of code that keeps to itself are refused for what they hold only. -/
theorem ordinaryFault_of_refusal {frame : Frame} {callers : List Frame} {instruction : Instruction}
    (refusal : Refusal env machine.counted frame instruction fault)
    (running : machine.frames = frame :: callers) (current : frame.instruction = .ok instruction)
    (consistent : machine.Consistent) (contained : frame.function.definition.SelfContained)
    (passed : frame.function.module.check frame.function.id = .ok ()) :
    OrdinaryFault machine fault := by
  have calls := refusal.callee_found current passed
  cases refusal with
  | slot mentioned outside =>
      have window := consistent.window_running running
      have inside := Frame.slot_lt_of_selfContained contained current mentioned
      simp only [stack_counted] at outside
      omega
  | kind => exact .kind
  | cell => exact .cell
  | callee missing => exact absurd rfl (calls.1 _)
  | arity found differs => exact absurd rfl (calls.2 _ _)
  | depth => exact .depth
  | argument given outside => exact .argument running current given
  | callback => exact .callback

/-- Verified code that keeps to itself meets ordinary faults only. -/
theorem StepFault.ordinary (stopped : StepFault env machine fault)
    (consistent : machine.Consistent) (within : machine.RunsWithin function)
    (verified : function.verifyAll = .ok ())
    (contained : ∀ id definition, function.module.Connected function.id id →
      function.module.get? id = some definition → definition.SelfContained) :
    OrdinaryFault machine fault := by
  have keeps : ∀ frame ∈ machine.frames, frame.function.definition.SelfContained := by
    intro frame member
    obtain ⟨sameModule, connected⟩ := within.reaches frame member
    exact contained _ _ connected (sameModule ▸ frame.function.get?_id)
  have inCode := consistent.activations.inCode
  have returns := stopped.ne_notACallSite consistent
  cases stopped with
  | steps => exact .steps
  | idle empty => exact absurd empty within.busy
  | @offCode frame callers running outside =>
      have member : frame ∈ machine.frames := by simp [running]
      have inside := Frame.pc_lt_of_selfContained (keeps frame member) (inCode frame member)
      omega
  | @refused frame callers instruction fault running current refusal =>
      exact ordinaryFault_of_refusal refusal running current consistent
        (keeps frame (by simp [running])) ((within.reaches_running running).check verified)
  | stack => exact .stack
  | address => exact .address
  | @dest frame callers instruction dest size running current target outside =>
      have window := consistent.window_running running
      have inside := Frame.slot_lt_of_selfContained (keeps frame (by simp [running])) current
        (Instruction.dest_mem_frameSlots target)
      omega
  | @runsOff frame callers instruction running current onward outside =>
      have inside := Frame.next_lt_of_selfContained (keeps frame (by simp [running])) current onward
      omega
  | @target frame callers instruction target running current named outside =>
      have inside := Frame.target_lt_of_selfContained (keeps frame (by simp [running])) current
        named
      omega
  | noCall running site other => exact absurd rfl (returns _)
  | @callerOffCode frame caller rest running outside =>
      have member : caller ∈ machine.frames := by simp [running]
      have inside := Frame.pc_lt_of_selfContained (keeps caller member) (inCode caller member)
      omega
  | @callerDest frame caller rest dest callee args size running site outside =>
      -- The caller's slots end below the frame that is given up.
      have window := (consistent.pop running).window caller rfl
      have inside := Frame.slot_lt_of_selfContained (keeps caller (by simp [running])) site
        (Instruction.dest_mem_frameSlots rfl)
      simp only [ValueStack.size_truncate] at window
      omega
  | @callerRunsOff frame caller rest dest callee args running site outside =>
      have inside := Frame.next_lt_of_selfContained (keeps caller (by simp [running])) site rfl
      omega

end Faults

/-- A run of verified code. Starting it can fail for want of room only. None of its steps, up to
the one that ends it, misses a function, passes a wrong number of arguments, returns to an
instruction that is no call, or finds no frame to run. If all functions that calls lead to keep to
their own code and slots, the faults left are the ordinary ones. -/
theorem verified_run_faults {function : Function} (verified : function.verifyAll = .ok ())
    {args : List Value} (arity : args.length = function.argCount.toNat) (env : Environment)
    (before : Machine) :
    (∀ fault, (before.start env.limits function args).1 = .faulted fault →
      ∃ limit, fault = .stackLimitExceeded limit) ∧
    ∀ count machine fault, before.interpret env count function args = (.running, machine) →
      (machine.step env).1 = .faulted fault →
      ((∀ id, fault ≠ .unknownFunction id) ∧
        (∀ expected found, fault ≠ .argumentCount expected found) ∧
        (∀ pc, fault ≠ .notACallSite pc) ∧ fault ≠ .noFrame) ∧
      ((∀ id definition, function.module.Connected function.id id →
          function.module.get? id = some definition → definition.SelfContained) →
        OrdinaryFault machine fault) := by
  constructor
  · intro fault stopped
    simp only [start, if_pos arity] at stopped
    exact enter_eq_faulted (Prod.ext stopped rfl)
  · intro count machine fault ran stopped
    have within := RunsWithin.of_interpret ran
    have consistent := Consistent.interpret env count before function args
    rw [ran] at consistent
    have source := stepFault_of_step (Prod.ext stopped rfl)
    exact ⟨source.calls_sound consistent within verified,
      source.ordinary consistent within verified⟩

theorem selfContained_poking {id : FuncId} {definition : Definition}
    (present : poking.module.get? id = some definition) : definition.SelfContained := by
  have all : ∀ definition ∈ poking.module.functions, definition.SelfContained := by decide
  exact all definition (List.mem_of_getElem? present)

theorem verified_run_faults_poking :
    poking.verifyAll = .ok () ∧
      (pokingAfter 2).step ⟨⟨none, none, some 2⟩, none, none⟩ =
        (.faulted (.stepLimitExceeded 2), (pokingAfter 2).counted) ∧
      OrdinaryFault (pokingAfter 2) (.stepLimitExceeded 2) := by
  have verified : poking.verifyAll = .ok () := by cbv
  have arity : ([] : List Value).length = poking.argCount.toNat := rfl
  refine ⟨verified, rfl, ?_⟩
  exact ((verified_run_faults verified arity ⟨⟨none, none, some 2⟩, none, none⟩ .idle).2 2
    (pokingAfter 2) _ rfl rfl).2 fun id definition _ present => selfContained_poking present

end Machine
end RegisterMachine
