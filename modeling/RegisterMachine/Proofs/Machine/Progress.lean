import RegisterMachine.Proofs.Machine.Plan

/-!
What one step does.

`Stepped` is the whole step function as a case distinction: four ways to stop before anything has
changed, and the performance of an action. `Progress` describes the steps after which the machine
is still running, with the machine they lead to written out; `progress_of_step` opens such a step.
-/
set_option autoImplicit false

namespace RegisterMachine

namespace Frame

theorem instruction_eq_ok_iff {frame : Frame} {instruction : Instruction} :
    frame.instruction = .ok instruction ↔ frame.function.code[frame.pc]? = some instruction := by
  unfold Frame.instruction
  cases frame.function.code[frame.pc]? <;> simp

theorem instruction_eq_error {frame : Frame} {fault : Fault}
    (off : frame.instruction = .error fault) :
    frame.function.length ≤ frame.pc ∧ fault = .pcOutOfRange frame.pc frame.function.length := by
  unfold Frame.instruction at off
  cases found : frame.function.code[frame.pc]? with
  | some instruction => simp [found] at off
  | none =>
      simp only [found, Except.error.injEq] at off
      exact ⟨by simpa [Function.length] using found, off.symm⟩

end Frame

theorem Limits.checkSteps_eq_error {limits : Limits} {steps : Nat} {fault : Fault}
    (exceeded : limits.checkSteps steps = .error fault) :
    ∃ limit, fault = .stepLimitExceeded limit := by
  unfold checkSteps at exceeded
  split at exceeded
  · split at exceeded <;> cases exceeded
    exact ⟨_, rfl⟩
  · cases exceeded

theorem Limits.checkStack_eq_error {limits : Limits} {stack : ValueStack} {fault : Fault}
    (exceeded : limits.checkStack stack = .error fault) :
    ∃ limit, fault = .stackLimitExceeded limit := by
  unfold checkStack at exceeded
  split at exceeded
  · split at exceeded <;> cases exceeded
    exact ⟨_, rfl⟩
  · cases exceeded

namespace Machine

/-- The machine with the step it is about to take counted. -/
def counted (machine : Machine) : Machine :=
  { machine with steps := machine.steps + 1 }

@[simp] theorem stack_counted (machine : Machine) : machine.counted.stack = machine.stack := rfl

@[simp] theorem frames_counted (machine : Machine) : machine.counted.frames = machine.frames := rfl

theorem step_eq_counted (env : Environment) (machine : Machine) :
    step env machine =
      match env.limits.checkSteps machine.counted.steps with
      | .error fault => (.faulted fault, machine.counted)
      | .ok () =>
        match machine.counted.frames with
        | [] => (.faulted .noFrame, machine.counted)
        | frame :: _ =>
          match frame.instruction with
          | .error fault => (.faulted fault, machine.counted)
          | .ok instruction =>
            match env.plan machine.counted frame instruction with
            | .error fault => (.faulted fault, machine.counted)
            | .ok action => machine.counted.perform env.limits frame action := rfl

/-- The ways a step can go. -/
inductive Stepped (env : Environment) (machine : Machine) : Status × Machine → Prop
  | limit {fault : Fault}
      (exceeded : env.limits.checkSteps (machine.steps + 1) = .error fault) :
      Stepped env machine (.faulted fault, machine.counted)
  | idle (empty : machine.frames = []) :
      Stepped env machine (.faulted .noFrame, machine.counted)
  | offCode {frame : Frame} {callers : List Frame} {fault : Fault}
      (running : machine.frames = frame :: callers) (off : frame.instruction = .error fault) :
      Stepped env machine (.faulted fault, machine.counted)
  | refused {frame : Frame} {callers : List Frame} {instruction : Instruction} {fault : Fault}
      (running : machine.frames = frame :: callers)
      (current : frame.instruction = .ok instruction)
      (refusal : Refusal env machine.counted frame instruction fault) :
      Stepped env machine (.faulted fault, machine.counted)
  | performed {frame : Frame} {callers : List Frame} {instruction : Instruction} {action : Action}
      (running : machine.frames = frame :: callers)
      (current : frame.instruction = .ok instruction)
      (planned : Planned env machine.counted frame instruction action) :
      Stepped env machine (machine.counted.perform env.limits frame action)

theorem stepped (env : Environment) (machine : Machine) :
    Stepped env machine (step env machine) := by
  unfold step
  simp only
  split
  · exact .limit ‹_›
  · split
    · exact .idle ‹_›
    · split
      · exact .offCode ‹_› ‹_›
      · split
        · exact .refused ‹_› ‹_› (Environment.refusal_of_plan ‹_›)
        · exact .performed ‹_› ‹_› (Environment.planned_of_plan ‹_›)

/-! ## Operations of the running frame -/

section Operations

variable {machine : Machine} {frame : Frame} {callers : List Frame}

theorem goTo_of_lt {pc : Nat} (running : machine.frames = frame :: callers)
    (inside : pc < frame.function.length) :
    machine.goTo pc = (.running, { machine with frames := { frame with pc := pc } :: callers }) := by
  simp [goTo, running, Frame.jump, inside]

theorem goTo_of_le {pc : Nat} (running : machine.frames = frame :: callers)
    (outside : frame.function.length ≤ pc) :
    machine.goTo pc = (.faulted (.pcOutOfRange pc frame.function.length), machine) := by
  simp [goTo, running, Frame.jump, Nat.not_lt.mpr outside]

theorem assign_of_lt {dest : Slot} {value : Value}
    (inside : frame.bottom + dest.toNat < machine.stack.size) :
    machine.assign frame dest value =
      { machine with stack := machine.stack.put (frame.bottom + dest.toNat) value }.goTo
        (frame.pc + 1) := by
  simp [assign, Frame.place, inside]

theorem assign_of_le {dest : Slot} {value : Value}
    (outside : machine.stack.size ≤ frame.bottom + dest.toNat) :
    machine.assign frame dest value =
      (.faulted (.slotOutOfRange dest.toNat frame.bottom machine.stack.size), machine) := by
  simp [assign, Frame.place, Nat.not_lt.mpr outside]

theorem leave_outermost {value : Value} (running : machine.frames = [frame]) :
    machine.leave value =
      (.returned value,
        { machine with stack := machine.stack.truncate frame.bottom, frames := [] }) := by
  simp [leave, running]

theorem leave_of_call {caller : Frame} {rest : List Frame} {value : Value} {dest : Slot}
    {callee : FuncId} {args : List Slot} (running : machine.frames = frame :: caller :: rest)
    (site : caller.instruction = .ok (.call dest callee args)) :
    machine.leave value =
      { machine with
        stack := machine.stack.truncate frame.bottom
        frames := caller :: rest }.assign caller dest value := by
  simp [leave, running, site]

end Operations

/-! ## Steps after which the machine runs on -/

/-- A step after which the machine is still running, and the machine it leads to. -/
inductive Progress (env : Environment) (machine : Machine) : Machine → Prop
  | assigned {frame : Frame} {callers : List Frame} {instruction : Instruction} {dest : Slot}
      {value : Value} {output : Array String} (running : machine.frames = frame :: callers)
      (current : frame.instruction = .ok instruction) (target : instruction.dest? = some dest)
      (callee : instruction.callee? = none)
      (inside : frame.bottom + dest.toNat < machine.stack.size)
      (more : frame.pc + 1 < frame.function.length) :
      Progress env machine
        ⟨machine.stack.put (frame.bottom + dest.toNat) value,
          { frame with pc := frame.pc + 1 } :: callers, machine.steps + 1, output⟩
  | allocated {frame : Frame} {callers : List Frame} {access : Access} {dest : Slot}
      (running : machine.frames = frame :: callers)
      (current : frame.instruction = .ok (.allocate access dest))
      (addressable : machine.stack.size < 0x80000000)
      (room : env.limits.checkStack (machine.stack.push .undefined) = .ok ())
      (inside : frame.bottom + dest.toNat < machine.stack.size + 1)
      (more : frame.pc + 1 < frame.function.length) :
      Progress env machine
        ⟨(machine.stack.push .undefined).put (frame.bottom + dest.toNat)
            (Cell.toValue ⟨machine.stack.size⟩),
          { frame with pc := frame.pc + 1 } :: callers, machine.steps + 1, machine.output⟩
  | stored {frame : Frame} {callers : List Frame} {access : Access} {x y : Slot} {cell : Cell}
      {value : Value} (running : machine.frames = frame :: callers)
      (current : frame.instruction = .ok (.store access x y))
      (addressed : frame.readCell machine.stack x = .ok cell)
      (read : frame.read machine.stack y.toNat = .ok value)
      (more : frame.pc + 1 < frame.function.length) :
      Progress env machine
        ⟨machine.stack.put cell.address value, { frame with pc := frame.pc + 1 } :: callers,
          machine.steps + 1, machine.output⟩
  | jumped {frame : Frame} {callers : List Frame} {instruction : Instruction} {target : UInt16}
      {pc : Nat} (running : machine.frames = frame :: callers)
      (current : frame.instruction = .ok instruction) (named : instruction.target? = some target)
      (choice : pc = frame.pc + 1 ∨ pc = target.toNat) (inside : pc < frame.function.length) :
      Progress env machine
        ⟨machine.stack, { frame with pc := pc } :: callers, machine.steps + 1, machine.output⟩
  | entered {frame : Frame} {callers : List Frame} {dest : Slot} {callee : FuncId}
      {args : List Slot} {function : Function} {values : List Value}
      (running : machine.frames = frame :: callers)
      (current : frame.instruction = .ok (.call dest callee args))
      (found : frame.function.callee? callee = some function)
      (arity : args.length = function.argCount.toNat)
      (shallow : env.limits.checkDepth machine.frames = .ok ())
      (read : args.mapM (fun index => machine.stack.get index.toNat) = .ok values)
      (room : env.limits.checkStack
        (machine.stack.pushWindow values function.numLocals.toNat) = .ok ()) :
      Progress env machine
        ⟨machine.stack.pushWindow values function.numLocals.toNat,
          ⟨machine.stack.size, function, 0⟩ :: frame :: callers, machine.steps + 1, machine.output⟩
  | returned {frame caller : Frame} {rest : List Frame} {x dest : Slot} {callee : FuncId}
      {args : List Slot} {value : Value} (running : machine.frames = frame :: caller :: rest)
      (current : frame.instruction = .ok (.leave x))
      (read : frame.read machine.stack x.toNat = .ok value)
      (site : caller.instruction = .ok (.call dest callee args))
      (inside : caller.bottom + dest.toNat < (machine.stack.truncate frame.bottom).size)
      (more : caller.pc + 1 < caller.function.length) :
      Progress env machine
        ⟨(machine.stack.truncate frame.bottom).put (caller.bottom + dest.toNat) value,
          { caller with pc := caller.pc + 1 } :: rest, machine.steps + 1, machine.output⟩

section Running

variable {machine next : Machine} {frame : Frame} {callers : List Frame}

theorem goTo_eq_running {pc : Nat} (moved : machine.goTo pc = (.running, next))
    (running : machine.frames = frame :: callers) :
    pc < frame.function.length ∧
      next = { machine with frames := { frame with pc := pc } :: callers } := by
  rcases Nat.lt_or_ge pc frame.function.length with inside | outside
  · rw [goTo_of_lt running inside] at moved
    cases moved
    exact ⟨inside, rfl⟩
  · rw [goTo_of_le running outside] at moved
    cases moved

theorem assign_eq_running {dest : Slot} {value : Value}
    (assigned : machine.assign frame dest value = (.running, next))
    (running : machine.frames = frame :: callers) :
    frame.bottom + dest.toNat < machine.stack.size ∧ frame.pc + 1 < frame.function.length ∧
      next = { machine with
        stack := machine.stack.put (frame.bottom + dest.toNat) value
        frames := { frame with pc := frame.pc + 1 } :: callers } := by
  rcases Nat.lt_or_ge (frame.bottom + dest.toNat) machine.stack.size with inside | outside
  · rw [assign_of_lt inside] at assigned
    obtain ⟨more, rfl⟩ := goTo_eq_running assigned running
    exact ⟨inside, more, rfl⟩
  · rw [assign_of_le outside] at assigned
    cases assigned

theorem allocate_eq_running {limits : Limits} {dest : Slot}
    (allocated : machine.allocate limits frame dest = (.running, next))
    (running : machine.frames = frame :: callers) :
    machine.stack.size < 0x80000000 ∧
      limits.checkStack (machine.stack.push .undefined) = .ok () ∧
      frame.bottom + dest.toNat < machine.stack.size + 1 ∧
      frame.pc + 1 < frame.function.length ∧
      next = { machine with
        stack := (machine.stack.push .undefined).put (frame.bottom + dest.toNat)
          (Cell.toValue ⟨machine.stack.size⟩)
        frames := { frame with pc := frame.pc + 1 } :: callers } := by
  simp only [allocate, ValueStack.nextCell] at allocated
  split at allocated
  · cases allocated
  · rename_i cell next
    split at next
    · cases next
      split at allocated
      · cases allocated
      · obtain ⟨inside, more, rfl⟩ := assign_eq_running allocated running
        exact ⟨‹_›, ‹_›, by simpa using inside, more, rfl⟩
    · cases next

theorem enter_eq_running {limits : Limits} {function : Function} {args : List Value}
    (entered : machine.enter limits function args = (.running, next)) :
    limits.checkStack (machine.stack.pushWindow args function.numLocals.toNat) = .ok () ∧
      next = { machine with
        stack := machine.stack.pushWindow args function.numLocals.toNat
        frames := ⟨machine.stack.size, function, 0⟩ :: machine.frames } := by
  simp only [enter] at entered
  split at entered
  · cases entered
  · cases entered
    exact ⟨‹_›, rfl⟩

/-- Only a return to a call goes on: the value goes to the call's destination. -/
theorem leave_eq_running {value : Value} (left : machine.leave value = (.running, next))
    (running : machine.frames = frame :: callers) :
    ∃ caller rest dest callee args, callers = caller :: rest ∧
      caller.instruction = .ok (.call dest callee args) ∧
      caller.bottom + dest.toNat < (machine.stack.truncate frame.bottom).size ∧
      caller.pc + 1 < caller.function.length ∧
      next = { machine with
        stack := (machine.stack.truncate frame.bottom).put (caller.bottom + dest.toNat) value
        frames := { caller with pc := caller.pc + 1 } :: rest } := by
  cases callers with
  | nil =>
      rw [leave_outermost running] at left
      cases left
  | cons caller rest =>
      simp only [leave, running] at left
      split at left
      · rename_i dest callee args site
        obtain ⟨inside, more, rfl⟩ := assign_eq_running left rfl
        exact ⟨caller, rest, dest, callee, args, rfl, site, inside, more, rfl⟩
      · cases left
      · cases left

end Running

theorem progress_of_step {env : Environment} {machine next : Machine}
    (taken : step env machine = (.running, next)) : Progress env machine next := by
  have view := stepped env machine
  rw [taken] at view
  generalize result : (Status.running, next) = outcome at view
  cases view with
  | limit exceeded => cases result
  | idle empty => cases result
  | offCode running off => cases result
  | refused running current refusal => cases result
  | performed running current planned =>
      cases planned with
      | assign target callee =>
          obtain ⟨inside, more, rfl⟩ := assign_eq_running result.symm running
          exact .assigned running current target callee inside more
      | allocate =>
          obtain ⟨addressable, room, inside, more, rfl⟩ := allocate_eq_running result.symm running
          exact .allocated running current addressable room inside more
      | store addressed read =>
          obtain ⟨more, rfl⟩ := goTo_eq_running result.symm running
          exact .stored running current addressed read more
      | jump =>
          obtain ⟨inside, rfl⟩ := goTo_eq_running result.symm running
          exact .jumped running current rfl (.inr rfl) inside
      | branch choice =>
          obtain ⟨inside, rfl⟩ := goTo_eq_running result.symm running
          exact .jumped running current rfl choice inside
      | enter found arity shallow read =>
          obtain ⟨room, rfl⟩ := enter_eq_running result.symm
          simp only [frames_counted, running]
          exact .entered running current found arity shallow read room
      | leave read =>
          obtain ⟨caller, rest, dest, callee, args, rfl, site, inside, more, rfl⟩ :=
            leave_eq_running result.symm running
          exact .returned running current read site inside more
      | accept =>
          obtain ⟨inside, more, rfl⟩ := assign_eq_running result.symm running
          exact .assigned running current rfl rfl inside more

/-- A step that is within its limit reads the current instruction's operands, and then performs the
action they make. -/
theorem step_at {env : Environment} {machine : Machine} {frame : Frame} {callers : List Frame}
    {instruction : Instruction} (allowed : env.limits.checkSteps machine.counted.steps = .ok ())
    (running : machine.frames = frame :: callers) (current : frame.instruction = .ok instruction) :
    step env machine =
      match env.plan machine.counted frame instruction with
      | .error fault => (.faulted fault, machine.counted)
      | .ok action => machine.counted.perform env.limits frame action := by
  simp only [step_eq_counted, allowed, frames_counted, running, current]

/-- A step that goes on performs the action that the current instruction turns into. -/
theorem performed_of_step {env : Environment} {machine next : Machine} {frame : Frame}
    {callers : List Frame} {instruction : Instruction}
    (taken : step env machine = (.running, next)) (running : machine.frames = frame :: callers)
    (current : frame.instruction = .ok instruction) :
    ∃ action, env.plan machine.counted frame instruction = .ok action ∧
      machine.counted.perform env.limits frame action = (.running, next) := by
  rw [step_eq_counted] at taken
  simp only [frames_counted, running, current] at taken
  split at taken
  · cases taken
  · split at taken
    · cases taken
    · exact ⟨_, ‹_›, taken⟩

theorem Progress.steps {env : Environment} {machine next : Machine}
    (taken : Progress env machine next) : next.steps = machine.steps + 1 := by
  cases taken <;> rfl

/-! ## The last step -/

section Returned

variable {machine next : Machine} {frame : Frame} {value : Value}

theorem goTo_ne_returned (pc : Nat) : machine.goTo pc ≠ (.returned value, next) := by
  intro ended
  simp only [goTo] at ended
  split at ended
  · cases ended
  · split at ended <;> cases ended

theorem assign_ne_returned (dest : Slot) (assigned : Value) :
    machine.assign frame dest assigned ≠ (.returned value, next) := by
  intro ended
  simp only [assign] at ended
  split at ended
  · exact goTo_ne_returned _ ended
  · cases ended

theorem allocate_ne_returned (limits : Limits) (dest : Slot) :
    machine.allocate limits frame dest ≠ (.returned value, next) := by
  intro ended
  simp only [allocate] at ended
  split at ended
  · cases ended
  · split at ended
    · cases ended
    · exact assign_ne_returned _ _ ended

theorem enter_ne_returned (limits : Limits) (function : Function) (args : List Value) :
    machine.enter limits function args ≠ (.returned value, next) := by
  intro ended
  simp only [enter] at ended
  split at ended <;> cases ended

theorem leave_eq_returned {callers : List Frame} {left : Value}
    (ended : machine.leave left = (.returned value, next))
    (running : machine.frames = frame :: callers) :
    callers = [] ∧ value = left ∧
      next = { machine with stack := machine.stack.truncate frame.bottom, frames := [] } := by
  cases callers with
  | nil =>
      rw [leave_outermost running] at ended
      cases ended
      exact ⟨rfl, rfl, rfl⟩
  | cons caller rest =>
      simp only [leave, running] at ended
      split at ended
      · exact absurd ended (assign_ne_returned _ _)
      · cases ended
      · cases ended

end Returned

/-- Only a return of the outermost function ends a run with a value. -/
theorem returned_of_step {env : Environment} {machine next : Machine} {value : Value}
    (ended : step env machine = (.returned value, next)) :
    ∃ frame x, machine.frames = [frame] ∧ frame.instruction = .ok (.leave x) ∧
      frame.read machine.stack x.toNat = .ok value ∧
      next = { machine.counted with
        stack := machine.stack.truncate frame.bottom
        frames := [] } := by
  have view := stepped env machine
  rw [ended] at view
  generalize result : (Status.returned value, next) = outcome at view
  cases view with
  | limit exceeded => cases result
  | idle empty => cases result
  | offCode running off => cases result
  | refused running current refusal => cases result
  | performed running current planned =>
      cases planned with
      | assign target callee => exact absurd result.symm (assign_ne_returned _ _)
      | allocate => exact absurd result.symm (allocate_ne_returned _ _)
      | store addressed read => exact absurd result.symm (goTo_ne_returned _)
      | jump => exact absurd result.symm (goTo_ne_returned _)
      | branch choice => exact absurd result.symm (goTo_ne_returned _)
      | enter found arity shallow read => exact absurd result.symm (enter_ne_returned _ _ _)
      | leave read =>
          obtain ⟨rfl, rfl, rfl⟩ := leave_eq_returned result.symm running
          exact ⟨_, _, running, current, read, rfl⟩
      | accept => exact absurd result.symm (assign_ne_returned _ _)

/-! ## Runs -/

section Runs

variable {env : Environment} {machine next : Machine}

/-- A run of at least one step that has not ended begins with a step. -/
theorem run_succ_eq_running {count : Nat} :
    run env (count + 1) machine = (.running, next) ↔
      ∃ first, step env machine = (.running, first) ∧ run env count first = (.running, next) := by
  constructor
  · intro ran
    simp only [run] at ran
    split at ran
    · rename_i first taken
      exact ⟨first, taken, ran⟩
    · rename_i ended
      exact absurd ran (ended next)
  · rintro ⟨first, taken, ran⟩
    simpa only [run, taken] using ran

/-- A run of at least one step that has not ended ends with a step. -/
theorem run_succ_eq_running_last {count : Nat} :
    run env (count + 1) machine = (.running, next) ↔
      ∃ last, run env count machine = (.running, last) ∧ step env last = (.running, next) := by
  induction count generalizing machine with
  | zero =>
      rw [run_succ_eq_running]
      constructor
      · rintro ⟨first, taken, ran⟩
        cases ran
        exact ⟨machine, rfl, taken⟩
      · rintro ⟨last, ran, taken⟩
        cases ran
        exact ⟨next, taken, rfl⟩
  | succ count ih =>
      rw [run_succ_eq_running]
      constructor
      · rintro ⟨first, taken, ran⟩
        obtain ⟨last, before, final⟩ := ih.mp ran
        exact ⟨last, run_succ_eq_running.mpr ⟨first, taken, before⟩, final⟩
      · rintro ⟨last, before, final⟩
        obtain ⟨first, taken, before⟩ := run_succ_eq_running.mp before
        exact ⟨first, taken, ih.mpr ⟨last, before, final⟩⟩

/-- A run that ends does so in the step after some number of others. -/
theorem run_eq_ended {fuel : Nat} {status : Status} (halted : status ≠ .running)
    (ended : run env fuel machine = (status, next)) :
    ∃ count last, run env count machine = (.running, last) ∧
      step env last = (status, next) := by
  induction fuel generalizing machine with
  | zero =>
      cases ended
      exact absurd rfl halted
  | succ fuel ih =>
      simp only [run] at ended
      split at ended
      · rename_i first taken
        obtain ⟨count, last, ran, final⟩ := ih ended
        exact ⟨count + 1, last, run_succ_eq_running.mpr ⟨first, taken, ran⟩, final⟩
      · exact ⟨0, machine, rfl, ended⟩

/-- A run can be interrupted at any point and taken up again. -/
theorem run_add (first second : Nat) :
    run env (first + second) machine =
      match run env first machine with
      | (.running, next) => run env second next
      | ended => ended := by
  induction first generalizing machine with
  | zero => simp [run]
  | succ first ih =>
      rw [Nat.succ_add]
      simp only [run]
      cases taken : step env machine with
      | mk status next =>
          cases status with
          | running => exact ih
          | returned value => rfl
          | faulted fault => rfl

theorem steps_of_run {count : Nat} (ran : run env count machine = (.running, next)) :
    next.steps = machine.steps + count := by
  induction count generalizing next with
  | zero =>
      cases ran
      rfl
  | succ count ih =>
      obtain ⟨last, before, final⟩ := run_succ_eq_running_last.mp ran
      rw [(progress_of_step final).steps, ih before]
      rfl

theorem interpret_eq_running {fuel : Nat} {function : Function} {args : List Value} :
    interpret env fuel machine function args = (.running, next) ↔
      ∃ started, start env.limits machine function args = (.running, started) ∧
        run env fuel started = (.running, next) := by
  constructor
  · intro ran
    simp only [interpret] at ran
    split at ran
    · rename_i started entered
      exact ⟨started, entered, ran⟩
    · rename_i ended
      exact absurd ran (ended next)
  · rintro ⟨started, entered, ran⟩
    simpa only [interpret, entered] using ran

/-- A run from the start that has taken another step has taken it last. -/
theorem interpret_succ_eq_running {count : Nat} {function : Function} {args : List Value} :
    interpret env (count + 1) machine function args = (.running, next) ↔
      ∃ last, interpret env count machine function args = (.running, last) ∧
        step env last = (.running, next) := by
  constructor
  · intro ran
    obtain ⟨started, entered, ran⟩ := interpret_eq_running.mp ran
    obtain ⟨last, before, final⟩ := run_succ_eq_running_last.mp ran
    exact ⟨last, interpret_eq_running.mpr ⟨started, entered, before⟩, final⟩
  · rintro ⟨last, ran, final⟩
    obtain ⟨started, entered, before⟩ := interpret_eq_running.mp ran
    exact interpret_eq_running.mpr
      ⟨started, entered, run_succ_eq_running_last.mpr ⟨last, before, final⟩⟩

theorem interpret_add (first second : Nat) (function : Function) (args : List Value) :
    interpret env (first + second) machine function args =
      match interpret env first machine function args with
      | (.running, next) => run env second next
      | ended => ended := by
  simp only [interpret]
  cases entered : start env.limits machine function args with
  | mk status started =>
      cases status with
      | running => exact run_add first second
      | returned value => rfl
      | faulted fault => rfl

theorem start_ne_returned {limits : Limits} {function : Function} {args : List Value}
    {value : Value} : start limits machine function args ≠ (.returned value, next) := by
  intro ended
  simp only [start] at ended
  split at ended
  · exact enter_ne_returned _ _ _ ended
  · cases ended

/-- A run from the start ends at once or in the step after some number of others. -/
theorem interpret_eq_ended {fuel : Nat} {function : Function} {args : List Value}
    {status : Status} (halted : status ≠ .running)
    (ended : interpret env fuel machine function args = (status, next)) :
    start env.limits machine function args = (status, next) ∨
      ∃ count last, interpret env count machine function args = (.running, last) ∧
        step env last = (status, next) := by
  simp only [interpret] at ended
  split at ended
  · rename_i started entered
    obtain ⟨count, last, ran, final⟩ := run_eq_ended halted ended
    exact .inr ⟨count, last, interpret_eq_running.mpr ⟨started, entered, ran⟩, final⟩
  · exact .inl ended

theorem interpret_eq_returned {fuel : Nat} {function : Function} {args : List Value}
    {value : Value} (ended : interpret env fuel machine function args = (.returned value, next)) :
    ∃ count last, interpret env count machine function args = (.running, last) ∧
      step env last = (.returned value, next) := by
  rcases interpret_eq_ended (by simp) ended with entered | final
  · exact absurd entered start_ne_returned
  · exact final

/-- What holds of a machine and is kept by every step that goes on holds as long as the machine
runs. -/
theorem run_preserves {property : Machine → Prop} {count : Nat}
    (kept : ∀ before after, property before → Progress env before after → property after)
    (ran : run env count machine = (.running, next)) (start : property machine) :
    property next := by
  induction count generalizing next with
  | zero =>
      cases ran
      exact start
  | succ count ih =>
      obtain ⟨last, before, final⟩ := run_succ_eq_running_last.mp ran
      exact kept last next (ih before) (progress_of_step final)

/-- A machine that has started runs one frame, with its slots on an empty stack. -/
theorem start_eq_running {limits : Limits} {function : Function} {args : List Value}
    (started : start limits machine function args = (.running, next)) :
    args.length = function.argCount.toNat ∧
      limits.checkStack (ValueStack.empty.pushWindow args function.numLocals.toNat) = .ok () ∧
      next = ⟨ValueStack.empty.pushWindow args function.numLocals.toNat, [⟨0, function, 0⟩], 0,
        machine.output⟩ := by
  simp only [start] at started
  split at started
  · obtain ⟨room, rfl⟩ := enter_eq_running started
    exact ⟨‹_›, room, rfl⟩
  · cases started

end Runs

end Machine
end RegisterMachine
