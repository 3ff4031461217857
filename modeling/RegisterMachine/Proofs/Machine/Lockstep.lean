import Mathlib.Data.List.Forall2
import RegisterMachine.Proofs.Machine.Soundness

/-!
Functions that are found, renumbered, in another module run there as they do in their own.

An `Embedding` maps functions of one module to copies in another, closed under calls. Two machines
that run such functions in `Lockstep` have the same stack and stand at the same places of
corresponding functions. Every step of the two ends in the same way, fault or not, and leaves them
in lockstep.
-/
set_option autoImplicit false

namespace RegisterMachine

/-- The same function but for its name and the numbers of the functions it calls. -/
structure Definition.Mirrors (rename : FuncId → FuncId) (copied original : Definition) : Prop where
  argCount : copied.argCount = original.argCount
  numLocals : copied.numLocals = original.numLocals
  code : copied.code = original.code.map (Instruction.mapCallee rename)

theorem Definition.mapCallees_mirrors (rename : FuncId → FuncId) (definition : Definition) :
    (definition.mapCallees rename).Mirrors rename definition where
  argCount := rfl
  numLocals := rfl
  code := by cases body : definition.body <;> simp [code, mapCallees, body]

/-- Functions of one module, closed under calls, that have renumbered copies in another. -/
structure Embedding where
  source : Module
  target : Module
  rename : FuncId → FuncId
  covers : FuncId → Prop
  copies : ∀ id, covers id → ∃ original copied, source.get? id = some original ∧
    target.get? (rename id) = some copied ∧ copied.Mirrors rename original
  closed : ∀ id, covers id → ∀ callee ∈ source.calleesOf id, covers callee

/-- The second function is the copy of the first. -/
structure Embedding.Relates (embedding : Embedding) (function copied : Function) : Prop where
  source : function.module = embedding.source
  target : copied.module = embedding.target
  covered : embedding.covers function.id
  renamed : copied.id = embedding.rename function.id

namespace Embedding.Relates

variable {embedding : Embedding} {function copied : Function}

theorem mirrors (relates : embedding.Relates function copied) :
    copied.definition.Mirrors embedding.rename function.definition := by
  obtain ⟨original, copy, here, there, mirrors⟩ := embedding.copies _ relates.covered
  rw [← relates.source, function.get?_id] at here
  rw [← relates.target, ← relates.renamed, copied.get?_id] at there
  cases here
  cases there
  exact mirrors

theorem argCount (relates : embedding.Relates function copied) :
    copied.argCount = function.argCount :=
  relates.mirrors.argCount

theorem numLocals (relates : embedding.Relates function copied) :
    copied.numLocals = function.numLocals :=
  relates.mirrors.numLocals

theorem code (relates : embedding.Relates function copied) :
    copied.code = function.code.map (Instruction.mapCallee embedding.rename) :=
  relates.mirrors.code

theorem length (relates : embedding.Relates function copied) :
    copied.length = function.length := by
  simp [Function.length, relates.code]

/-- Where a function calls another, its copy calls that one's copy. -/
theorem callee (relates : embedding.Relates function copied) {id : FuncId}
    (calls : id ∈ function.definition.callees) :
    ∃ callee copiedCallee, function.callee? id = some callee ∧
      copied.callee? (embedding.rename id) = some copiedCallee ∧
      embedding.Relates callee copiedCallee := by
  have covered : embedding.covers id := by
    refine embedding.closed _ relates.covered id ?_
    rw [← relates.source, Module.calleesOf_of_get? function.get?_id]
    exact calls
  obtain ⟨original, copy, here, there, -⟩ := embedding.copies id covered
  rw [← relates.source] at here
  rw [← relates.target] at there
  have inSource : id.index < function.module.functions.length := (List.getElem?_eq_some_iff.mp here).1
  have inTarget : (embedding.rename id).index < copied.module.functions.length :=
    (List.getElem?_eq_some_iff.mp there).1
  exact ⟨_, _, dif_pos inSource, dif_pos inTarget, relates.source, relates.target, covered, rfl⟩

end Embedding.Relates

/-- The second frame runs the copy of the first one's function, at the same place. -/
structure Embedding.FrameRelates (embedding : Embedding) (frame copied : Frame) : Prop where
  bottom : copied.bottom = frame.bottom
  pc : copied.pc = frame.pc
  function : embedding.Relates frame.function copied.function

/-- Two machines with the same stack and counts, the second running copies of the first one's
functions. -/
structure Embedding.Lockstep (embedding : Embedding) (machine copied : Machine) : Prop where
  stack : copied.stack = machine.stack
  steps : copied.steps = machine.steps
  output : copied.output = machine.output
  frames : List.Forall₂ embedding.FrameRelates machine.frames copied.frames

/-- Two steps that end in the same way and leave machines in lockstep. -/
structure Embedding.Agree (embedding : Embedding) (outcome copied : Status × Machine) : Prop where
  status : copied.1 = outcome.1
  lockstep : embedding.Lockstep outcome.2 copied.2

namespace Embedding

variable {embedding : Embedding} {machine machine' : Machine} {frame frame' : Frame}

theorem FrameRelates.place (relates : embedding.FrameRelates frame frame') :
    frame'.place = frame.place := by
  funext stack slot
  simp [Frame.place, relates.bottom]

theorem FrameRelates.instruction (relates : embedding.FrameRelates frame frame') :
    frame'.instruction = frame.instruction.map (Instruction.mapCallee embedding.rename) := by
  simp only [Frame.instruction, relates.pc, relates.function.code, relates.function.length,
    List.getElem?_map]
  cases frame.function.code[frame.pc]? <;> rfl

/-! ## Operations -/

namespace Lockstep

theorem frames_eq_nil (lockstep : embedding.Lockstep machine machine')
    (idle : machine.frames = []) : machine'.frames = [] := by
  have frames := lockstep.frames
  rw [idle] at frames
  exact List.forall₂_nil_left_iff.mp frames

theorem frames_eq_cons {callers : List Frame} (lockstep : embedding.Lockstep machine machine')
    (running : machine.frames = frame :: callers) :
    ∃ frame' callers', machine'.frames = frame' :: callers' ∧
      embedding.FrameRelates frame frame' ∧
      List.Forall₂ embedding.FrameRelates callers callers' := by
  have frames := lockstep.frames
  rw [running] at frames
  obtain ⟨frame', callers', relates, rest, same⟩ := List.forall₂_cons_left_iff.mp frames
  exact ⟨frame', callers', same, relates, rest⟩

/-- The stacks of two machines in lockstep can be replaced together. -/
theorem restack (lockstep : embedding.Lockstep machine machine') (stack : ValueStack) :
    embedding.Lockstep { machine with stack := stack } { machine' with stack := stack } :=
  ⟨rfl, lockstep.steps, lockstep.output, lockstep.frames⟩

theorem counted (lockstep : embedding.Lockstep machine machine') :
    embedding.Lockstep machine.counted machine'.counted :=
  ⟨lockstep.stack, congrArg (· + 1) lockstep.steps, lockstep.output, lockstep.frames⟩

theorem goTo (lockstep : embedding.Lockstep machine machine') (pc : Nat) :
    embedding.Agree (machine.goTo pc) (machine'.goTo pc) := by
  cases running : machine.frames with
  | nil =>
      simp only [Machine.goTo, running, lockstep.frames_eq_nil running]
      exact ⟨rfl, lockstep⟩
  | cons frame callers =>
      obtain ⟨frame', callers', running', relates, rest⟩ := lockstep.frames_eq_cons running
      have same := relates.function.length
      rcases Nat.lt_or_ge pc frame.function.length with inside | outside
      · rw [Machine.goTo_of_lt running inside, Machine.goTo_of_lt running' (same ▸ inside)]
        exact ⟨rfl, lockstep.stack, lockstep.steps, lockstep.output,
          .cons ⟨relates.bottom, rfl, relates.function⟩ rest⟩
      · rw [Machine.goTo_of_le running outside, Machine.goTo_of_le running' (same ▸ outside), same]
        exact ⟨rfl, lockstep⟩

theorem assign (lockstep : embedding.Lockstep machine machine')
    (relates : embedding.FrameRelates frame frame') (dest : Slot) (value : Value) :
    embedding.Agree (machine.assign frame dest value) (machine'.assign frame' dest value) := by
  simp only [Machine.assign, relates.place, lockstep.stack, relates.pc]
  split
  · exact (lockstep.restack _).goTo _
  · exact ⟨rfl, lockstep⟩

theorem allocate (lockstep : embedding.Lockstep machine machine')
    (relates : embedding.FrameRelates frame frame') (limits : Limits) (dest : Slot) :
    embedding.Agree (machine.allocate limits frame dest)
      (machine'.allocate limits frame' dest) := by
  simp only [Machine.allocate, lockstep.stack]
  split
  · exact ⟨rfl, lockstep⟩
  · split
    · exact ⟨rfl, lockstep.restack _⟩
    · exact (lockstep.restack _).assign relates dest _

theorem enter {function function' : Function} (lockstep : embedding.Lockstep machine machine')
    (relates : embedding.Relates function function') (limits : Limits) (args : List Value) :
    embedding.Agree (machine.enter limits function args) (machine'.enter limits function' args) := by
  simp only [Machine.enter, lockstep.stack, relates.numLocals]
  split
  · exact ⟨rfl, lockstep.restack _⟩
  · exact ⟨rfl, rfl, lockstep.steps, lockstep.output, .cons ⟨rfl, rfl, relates⟩ lockstep.frames⟩

theorem leave (lockstep : embedding.Lockstep machine machine') (value : Value) :
    embedding.Agree (machine.leave value) (machine'.leave value) := by
  cases running : machine.frames with
  | nil =>
      simp only [Machine.leave, running, lockstep.frames_eq_nil running]
      exact ⟨rfl, lockstep⟩
  | cons frame callers =>
      obtain ⟨frame', callers', running', relates, rest⟩ := lockstep.frames_eq_cons running
      have popped : embedding.Lockstep
          { machine with stack := machine.stack.truncate frame.bottom, frames := callers }
          { machine' with stack := machine'.stack.truncate frame'.bottom, frames := callers' } := by
        refine ⟨?_, lockstep.steps, lockstep.output, rest⟩
        simp only [lockstep.stack, relates.bottom]
      cases rest with
      | nil =>
          rw [Machine.leave_outermost running, Machine.leave_outermost running']
          exact ⟨rfl, popped⟩
      | cons caller outer =>
          rename_i waiting waiting' _ _
          -- Only here does a fault name a place in the code of a frame that waits.
          have noCall : Status.faulted (.notACallSite waiting'.pc) =
              .faulted (.notACallSite waiting.pc) := by rw [caller.pc]
          simp only [Machine.leave, running, running', caller.instruction]
          cases waiting.instruction with
          | error fault => exact ⟨rfl, popped⟩
          | ok instruction =>
              cases instruction with
              | call dest callee args => exact popped.assign caller dest value
              | _ => exact ⟨noCall, popped⟩

end Lockstep

/-! ## Reading -/

theorem mapCallee_of_callee?_eq_none {instruction : Instruction} (rename : FuncId → FuncId)
    (other : instruction.callee? = none) : instruction.mapCallee rename = instruction := by
  cases instruction with
  | call dest callee args => cases other
  | _ => rfl

section Reading

variable {env : Environment}

theorem FrameRelates.read (relates : embedding.FrameRelates frame frame') :
    frame'.read = frame.read := by
  funext stack slot
  simp [Frame.read, relates.place]

/-- Instructions that call nothing turn into the same action. -/
theorem Lockstep.plan_eq {instruction : Instruction}
    (lockstep : embedding.Lockstep machine machine')
    (relates : embedding.FrameRelates frame frame') (other : instruction.callee? = none) :
    env.plan machine' frame' instruction = env.plan machine frame instruction := by
  cases instruction with
  | call dest callee args => cases other
  | _ =>
      simp only [Environment.plan, Environment.planExecute, Frame.readCell, Frame.readInt32,
        Frame.readCallback, lockstep.stack, relates.read, relates.pc]

/-- A call is refused for the same reason or enters corresponding functions. -/
theorem Lockstep.planCall {callee : FuncId} {args : List Slot}
    (lockstep : embedding.Lockstep machine machine')
    (relates : embedding.FrameRelates frame frame')
    (calls : callee ∈ frame.function.definition.callees) :
    (∃ fault, env.planCall machine frame callee args = .error fault ∧
      env.planCall machine' frame' (embedding.rename callee) args = .error fault) ∨
    ∃ function function' values,
      env.planCall machine frame callee args = .ok (.enter function values) ∧
      env.planCall machine' frame' (embedding.rename callee) args =
        .ok (.enter function' values) ∧ embedding.Relates function function' := by
  obtain ⟨function, function', found, found', related⟩ := relates.function.callee calls
  have depth : env.limits.checkDepth machine'.frames = env.limits.checkDepth machine.frames := by
    simp only [Limits.checkDepth, lockstep.frames.length_eq]
  simp only [Environment.planCall, found, found', related.argCount, lockstep.stack, depth]
  by_cases arity : args.length = function.argCount.toNat
  · rw [if_neg (not_not_intro arity), if_neg (not_not_intro arity)]
    cases env.limits.checkDepth machine.frames with
    | error fault => exact .inl ⟨fault, rfl, rfl⟩
    | ok shallow =>
        cases args.mapM fun index => machine.stack.get index.toNat with
        | error fault => exact .inl ⟨fault, rfl, rfl⟩
        | ok values => exact .inr ⟨function, function', values, rfl, rfl, related⟩
  · rw [if_pos arity, if_pos arity]
    exact .inl ⟨_, rfl, rfl⟩

end Reading

/-! ## Steps -/

/-- Actions other than the entry of a function do the same to both machines. -/
theorem Lockstep.perform {env : Environment} {instruction : Instruction} {action : Action}
    (lockstep : embedding.Lockstep machine machine')
    (relates : embedding.FrameRelates frame frame')
    (planned : Planned env machine frame instruction action)
    (other : instruction.callee? = none) :
    embedding.Agree (machine.perform env.limits frame action)
      (machine'.perform env.limits frame' action) := by
  cases planned with
  | assign target callee => exact lockstep.assign relates _ _
  | allocate => exact lockstep.allocate relates _ _
  | store addressed read =>
      simp only [Machine.perform, lockstep.stack, relates.pc]
      exact (lockstep.restack _).goTo _
  | jump => exact lockstep.goTo _
  | branch choice => exact lockstep.goTo _
  | enter found => cases other
  | leave read => exact lockstep.leave _
  | @accept dest callee args reply =>
      have heard : embedding.Lockstep
          { machine with output := machine.output ++ reply.lines }
          { machine' with output := machine'.output ++ reply.lines } :=
        ⟨lockstep.stack, lockstep.steps, by rw [lockstep.output], lockstep.frames⟩
      exact heard.assign relates dest reply.value

/-- An instruction and its copy are refused for the same reason or do the same. -/
theorem Lockstep.execute {env : Environment} {instruction : Instruction}
    (lockstep : embedding.Lockstep machine machine')
    (relates : embedding.FrameRelates frame frame')
    (current : frame.instruction = .ok instruction) :
    embedding.Agree
      (match env.plan machine frame instruction with
        | .error fault => (.faulted fault, machine)
        | .ok action => machine.perform env.limits frame action)
      (match env.plan machine' frame' (instruction.mapCallee embedding.rename) with
        | .error fault => (.faulted fault, machine')
        | .ok action => machine'.perform env.limits frame' action) := by
  by_cases other : instruction.callee? = none
  · rw [mapCallee_of_callee?_eq_none embedding.rename other, lockstep.plan_eq relates other]
    split
    · exact ⟨rfl, lockstep⟩
    · exact lockstep.perform relates (Environment.planned_of_plan ‹_›) other
  · cases instruction with
    | call dest callee args =>
        have calls := Frame.mem_callees_of_instruction current
        simp only [Instruction.mapCallee, Environment.plan]
        rcases lockstep.planCall relates calls with
          ⟨fault, refused, refused'⟩ | ⟨function, function', values, planned, planned', related⟩
        · rw [refused, refused']
          exact ⟨rfl, lockstep⟩
        · rw [planned, planned']
          exact lockstep.enter related env.limits values
    | _ => exact absurd rfl other

/-- A step of two machines in lockstep ends in the same way in both and keeps them so. -/
theorem Lockstep.step (lockstep : embedding.Lockstep machine machine') (env : Environment) :
    embedding.Agree (machine.step env) (machine'.step env) := by
  have counted := lockstep.counted
  rw [Machine.step_eq_counted, Machine.step_eq_counted]
  simp only [counted.steps, Machine.frames_counted]
  split
  · exact ⟨rfl, counted⟩
  · cases running : machine.frames with
    | nil =>
        rw [lockstep.frames_eq_nil running]
        exact ⟨rfl, counted⟩
    | cons frame callers =>
        obtain ⟨frame', callers', running', relates, rest⟩ := lockstep.frames_eq_cons running
        simp only [running', relates.instruction]
        cases current : frame.instruction with
        | error fault => exact ⟨rfl, counted⟩
        | ok instruction => exact counted.execute relates current

end Embedding

namespace Machine

/-- The machine after this many further steps, whatever they end in. -/
def after (env : Environment) : Nat → Machine → Machine
  | 0, machine => machine
  | count + 1, machine => after env count (machine.step env).2

end Machine

namespace Embedding

variable {embedding : Embedding} {machine machine' : Machine}

/-- Lockstep lasts for any number of steps, past faults and past the end of the run. -/
theorem Lockstep.after (lockstep : embedding.Lockstep machine machine') (env : Environment)
    (count : Nat) : embedding.Lockstep (machine.after env count) (machine'.after env count) := by
  induction count generalizing machine machine' with
  | zero => exact lockstep
  | succ count ih => exact ih (lockstep.step env).lockstep

theorem Lockstep.run (lockstep : embedding.Lockstep machine machine') (env : Environment)
    (fuel : Nat) : embedding.Agree (Machine.run env fuel machine) (Machine.run env fuel machine') := by
  induction fuel generalizing machine machine' with
  | zero => exact ⟨rfl, lockstep⟩
  | succ fuel ih =>
      obtain ⟨status, next⟩ := lockstep.step env
      simp only [Machine.run]
      generalize machine.step env = outcome at status next ⊢
      generalize machine'.step env = outcome' at status next ⊢
      obtain ⟨ended, later⟩ := outcome
      obtain ⟨ended', later'⟩ := outcome'
      cases status
      cases ended with
      | running => exact ih next
      | returned value => exact ⟨rfl, next⟩
      | faulted fault => exact ⟨rfl, next⟩

/-- A function and its copy start in the same way. -/
theorem Relates.start {function function' : Function}
    (relates : embedding.Relates function function') (limits : Limits) (before : Machine)
    (args : List Value) :
    embedding.Agree (before.start limits function args) (before.start limits function' args) := by
  have rested : embedding.Lockstep before.reset before.reset := ⟨rfl, rfl, rfl, .nil⟩
  simp only [Machine.start, relates.argCount]
  split
  · exact rested.enter relates limits args
  · exact ⟨rfl, rested⟩

theorem Relates.interpret {function function' : Function}
    (relates : embedding.Relates function function') (env : Environment) (fuel : Nat)
    (before : Machine) (args : List Value) :
    embedding.Agree (before.interpret env fuel function args)
      (before.interpret env fuel function' args) := by
  obtain ⟨status, first⟩ := relates.start env.limits before args
  simp only [Machine.interpret]
  generalize before.start env.limits function args = outcome at status first ⊢
  generalize before.start env.limits function' args = outcome' at status first ⊢
  obtain ⟨ended, started⟩ := outcome
  obtain ⟨ended', started'⟩ := outcome'
  cases status
  cases ended with
  | running => exact first.run env fuel
  | returned value => exact ⟨rfl, first⟩
  | faulted fault => exact ⟨rfl, first⟩

end Embedding
end RegisterMachine
