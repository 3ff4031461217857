import RegisterMachine.Proofs.Machine.Bounds
import RegisterMachine.Proofs.Machine.Limits

/-!
What the limits on stack and steps bound.

The stack grows where a function is entered and where a cell is allocated, and each time the limit
is tested once the new values are in place. A test that fails leaves them there. But it also leaves
the machine at the instruction that grew the stack, where every further step grows it again and
fails again, so that no step succeeds on a stack that is too long.
-/
set_option autoImplicit false

namespace RegisterMachine

namespace Limits

theorem test_eq_ok {bound : Option Nat} {cause : Nat → Fault} {fits : Nat → Prop}
    [DecidablePred fits] (passed : test bound cause fits = .ok ()) : ∀ limit ∈ bound, fits limit := by
  rintro limit ⟨⟩
  simp only [test] at passed
  split at passed
  · assumption
  · cases passed

theorem checkStack_eq_ok {limits : Limits} {stack : ValueStack}
    (passed : limits.checkStack stack = .ok ()) :
    ∀ limit ∈ limits.maxStackSize, stack.size ≤ limit :=
  test_eq_ok passed

theorem checkSteps_eq_ok {limits : Limits} {steps : Nat}
    (passed : limits.checkSteps steps = .ok ()) : ∀ limit ∈ limits.maxSteps, steps ≤ limit :=
  test_eq_ok passed

theorem checkStack_of_lt {limits : Limits} {limit : Nat} {stack : ValueStack}
    (bounded : limits.maxStackSize = some limit) (long : limit < stack.size) :
    limits.checkStack stack = .error (.stackLimitExceeded limit) := by
  simp only [checkStack, bounded]
  exact if_neg (Nat.not_le.mpr long)

end Limits

/-- Whether an instruction makes the stack longer. -/
def Instruction.grows : Instruction → Bool
  | .allocate _ _ | .call _ _ _ => true
  | _ => false

namespace Machine

/-- The machine uses no more stack and no more steps than it is granted. -/
structure WithinLimits (limits : Limits) (machine : Machine) : Prop where
  stack : ∀ limit ∈ limits.maxStackSize, machine.stack.size ≤ limit
  steps : ∀ limit ∈ limits.maxSteps, machine.steps ≤ limit

/-! ## What operations leave alone -/

section Operations

variable (machine : Machine) (limits : Limits) (frame : Frame)

@[simp]
theorem stack_goTo (pc : Nat) : (machine.goTo pc).2.stack = machine.stack := by
  simp only [goTo]
  split
  · rfl
  · split <;> rfl

@[simp]
theorem steps_goTo (pc : Nat) : (machine.goTo pc).2.steps = machine.steps := by
  simp only [goTo]
  split
  · rfl
  · split <;> rfl

@[simp]
theorem size_assign (dest : Slot) (value : Value) :
    (machine.assign frame dest value).2.stack.size = machine.stack.size := by
  simp only [assign]
  split
  · rw [stack_goTo, ValueStack.size_put]
  · rfl

@[simp]
theorem steps_assign (dest : Slot) (value : Value) :
    (machine.assign frame dest value).2.steps = machine.steps := by
  simp only [assign]
  split
  · rw [steps_goTo]
  · rfl

theorem steps_allocate (dest : Slot) :
    (machine.allocate limits frame dest).2.steps = machine.steps := by
  simp only [allocate]
  split
  · rfl
  · split
    · rfl
    · exact steps_assign _ _ _ _

theorem steps_enter (function : Function) (args : List Value) :
    (machine.enter limits function args).2.steps = machine.steps := by
  simp only [enter]
  split <;> rfl

theorem steps_leave (value : Value) : (machine.leave value).2.steps = machine.steps := by
  simp only [leave]
  split
  · rfl
  · split
    · rfl
    · split
      · exact steps_assign _ _ _ _
      · rfl
      · rfl

theorem steps_perform (action : Action) :
    (machine.perform limits frame action).2.steps = machine.steps := by
  cases action with
  | assign dest value => exact steps_assign _ _ _ _
  | allocate dest => exact steps_allocate _ _ _ _
  | store cell value => exact steps_goTo _ _
  | goTo pc => exact steps_goTo _ _
  | enter callee args => exact steps_enter _ _ _ _
  | leave value => exact steps_leave _ _
  | accept dest reply => exact steps_assign _ _ _ _

theorem steps_step (env : Environment) : (machine.step env).2.steps = machine.steps + 1 := by
  have view := stepped env machine
  generalize machine.step env = outcome at view ⊢
  cases view with
  | performed running current planned => exact steps_perform _ _ _ _
  | _ => rfl

theorem steps_start (function : Function) (args : List Value) :
    (machine.start limits function args).2.steps = 0 := by
  simp only [start]
  split
  · exact steps_enter _ _ _ _
  · rfl

theorem size_leave_le (value : Value) :
    (machine.leave value).2.stack.size ≤ machine.stack.size := by
  simp only [leave]
  split
  · exact Nat.le_refl _
  · rename_i frame callers running
    have shorter : (machine.stack.truncate frame.bottom).size ≤ machine.stack.size := by
      rw [ValueStack.size_truncate]
      exact Nat.min_le_right _ _
    split
    · exact shorter
    · split
      · rw [size_assign]
        exact shorter
      · exact shorter
      · exact shorter

end Operations

/-! ## Stacks that are too long -/

/-- Machines in which no step leads anywhere once the stack is too long: nothing runs, or what runs
is about to make the stack longer still. -/
inductive Stuck (machine : Machine) : Prop
  | idle (empty : machine.frames = [])
  | growing {frame : Frame} {callers : List Frame} {instruction : Instruction}
      (running : machine.frames = frame :: callers)
      (current : frame.instruction = .ok instruction) (grows : instruction.grows = true)

theorem Stuck.of_frames_eq {machine next : Machine} (stuck : machine.Stuck)
    (same : next.frames = machine.frames) : next.Stuck := by
  cases stuck with
  | idle empty => exact .idle (same.trans empty)
  | growing running current grows => exact .growing (same.trans running) current grows

/-- The stack is within the limit, unless this is the fault of an attempt to make it longer that
can only be repeated. -/
def Respects (limit : Nat) (outcome : Status × Machine) : Prop :=
  outcome.2.stack.size ≤ limit ∨ (∃ fault, outcome.1 = .faulted fault) ∧ outcome.2.Stuck

section Growth

variable {machine : Machine} {env : Environment} {limits : Limits} {limit : Nat} {frame : Frame}
  {callers : List Frame}

theorem respects_allocate {access : Access} {dest : Slot}
    (bounded : limits.maxStackSize = some limit) (fits : machine.stack.size ≤ limit)
    (running : machine.frames = frame :: callers)
    (current : frame.instruction = .ok (.allocate access dest)) :
    Respects limit (machine.allocate limits frame dest) := by
  simp only [allocate]
  split
  · exact .inl fits
  · split
    · exact .inr ⟨⟨_, rfl⟩, .growing running current rfl⟩
    · rename_i passed
      apply Or.inl
      rw [size_assign]
      exact Limits.checkStack_eq_ok passed limit bounded

theorem respects_enter {function : Function} {args : List Value}
    (bounded : limits.maxStackSize = some limit) (stuck : machine.Stuck) :
    Respects limit (machine.enter limits function args) := by
  simp only [enter]
  split
  · exact .inr ⟨⟨_, rfl⟩, stuck.of_frames_eq rfl⟩
  · rename_i passed
    exact .inl (Limits.checkStack_eq_ok passed limit bounded)

theorem respects_perform {instruction : Instruction} {action : Action}
    (bounded : env.limits.maxStackSize = some limit) (fits : machine.stack.size ≤ limit)
    (running : machine.frames = frame :: callers) (current : frame.instruction = .ok instruction)
    (planned : Planned env machine frame instruction action) :
    Respects limit (machine.perform env.limits frame action) := by
  have kept {outcome : Status × Machine} (same : outcome.2.stack.size = machine.stack.size) :
      Respects limit outcome := .inl (same ▸ fits)
  cases planned with
  | assign target callee => exact kept (size_assign _ _ _ _)
  | allocate => exact respects_allocate bounded fits running current
  | store addressed read =>
      apply kept
      simp only [perform, stack_goTo, ValueStack.size_put]
  | jump => exact kept (congrArg ValueStack.size (stack_goTo _ _))
  | branch choice => exact kept (congrArg ValueStack.size (stack_goTo _ _))
  | enter found arity shallow read => exact respects_enter bounded (.growing running current rfl)
  | leave read => exact .inl (Nat.le_trans (size_leave_le _ _) fits)
  | accept => exact kept (size_assign _ _ _ _)

theorem respects_step_of_le (bounded : env.limits.maxStackSize = some limit)
    (fits : machine.stack.size ≤ limit) : Respects limit (machine.step env) := by
  have view := stepped env machine
  generalize machine.step env = outcome at view ⊢
  cases view with
  | performed running current planned => exact respects_perform bounded fits running current planned
  | _ => exact .inl fits

/-- At an instruction that grows a stack which is too long already, the machine stays. -/
theorem Stuck.step_of_lt (stuck : machine.Stuck) (bounded : env.limits.maxStackSize = some limit)
    (long : limit < machine.stack.size) :
    (∃ fault, (machine.step env).1 = .faulted fault) ∧
      (machine.step env).2.frames = machine.frames := by
  cases allowed : env.limits.checkSteps machine.counted.steps with
  | error fault =>
      rw [step_eq_counted, allowed]
      exact ⟨⟨fault, rfl⟩, rfl⟩
  | ok =>
      cases stuck with
      | idle empty =>
          rw [step_eq_counted, allowed, frames_counted, empty]
          exact ⟨⟨_, rfl⟩, empty⟩
      | @growing frame callers instruction running current grows =>
          rw [step_at allowed running current]
          cases instruction with
          | allocate access dest =>
              have refused : env.limits.checkStack (machine.stack.push .undefined) =
                  .error (.stackLimitExceeded limit) :=
                Limits.checkStack_of_lt bounded (by simp; omega)
              simp only [Environment.plan, perform, allocate]
              split
              · exact ⟨⟨_, rfl⟩, rfl⟩
              · simp only [stack_counted, refused]
                exact ⟨⟨_, rfl⟩, rfl⟩
          | call dest callee args =>
              cases planned : env.plan machine.counted frame (.call dest callee args) with
              | error fault => exact ⟨⟨fault, rfl⟩, rfl⟩
              | ok action =>
                  cases Environment.planned_of_plan planned with
                  | assign target absent => cases absent
                  | @enter _ _ _ function values found arity shallow read =>
                      have refused : env.limits.checkStack
                          (machine.stack.pushWindow values function.numLocals.toNat) =
                          .error (.stackLimitExceeded limit) :=
                        Limits.checkStack_of_lt bounded (by simp; omega)
                      simp only [perform, enter, stack_counted, refused]
                      exact ⟨⟨_, rfl⟩, rfl⟩
          | _ => cases grows

theorem respects_step (bounded : env.limits.maxStackSize = some limit)
    (before : machine.stack.size ≤ limit ∨ machine.Stuck) : Respects limit (machine.step env) := by
  rcases Nat.lt_or_ge limit machine.stack.size with long | fits
  · have stuck : machine.Stuck := before.resolve_left (Nat.not_le.mpr long)
    obtain ⟨failed, same⟩ := stuck.step_of_lt bounded long
    exact .inr ⟨failed, stuck.of_frames_eq same⟩
  · exact respects_step_of_le bounded fits

theorem respects_start (machine : Machine) (bounded : limits.maxStackSize = some limit)
    (function : Function) (args : List Value) :
    Respects limit (machine.start limits function args) := by
  simp only [start]
  split
  · exact respects_enter bounded (.idle rfl)
  · exact .inl (Nat.zero_le _)

theorem Respects.contained {outcome : Status × Machine} (respects : Respects limit outcome) :
    outcome.2.stack.size ≤ limit ∨ outcome.2.Stuck := by
  rcases respects with fits | ⟨-, stuck⟩
  · exact .inl fits
  · exact .inr stuck

theorem Respects.size_le {outcome : Status × Machine} (respects : Respects limit outcome)
    (success : ∀ fault, outcome.1 ≠ .faulted fault) : outcome.2.stack.size ≤ limit := by
  rcases respects with fits | ⟨⟨fault, failed⟩, -⟩
  · exact fits
  · exact absurd failed (success fault)

end Growth

/-! ## Machines that calls bring about -/

/-- The machines that a new one can be turned into by calls in any order under the same limits,
whatever the calls end in, with the number of steps called for since the last start. -/
inductive AfterSteps (limits : Limits) : Nat → Machine → Prop
  | idle : AfterSteps limits 0 .idle
  | start {count : Nat} {machine : Machine} (function : Function) (args : List Value)
      (called : AfterSteps limits count machine) :
      AfterSteps limits 0 (machine.start limits function args).2
  | step {count : Nat} {machine : Machine} (host : Option Registry) (globals : Option Globals)
      (called : AfterSteps limits count machine) :
      AfterSteps limits (count + 1) (machine.step ⟨limits, host, globals⟩).2
  | reset {count : Nat} {machine : Machine} (called : AfterSteps limits count machine) :
      AfterSteps limits 0 machine.reset

namespace AfterSteps

variable {limits : Limits} {count : Nat} {machine : Machine}

theorem steps_eq (called : AfterSteps limits count machine) : machine.steps = count := by
  induction called with
  | idle => rfl
  | start function args called ih => exact steps_start _ _ _ _
  | step host globals called ih => rw [steps_step, ih]
  | reset called ih => rfl

theorem contained {limit : Nat} (called : AfterSteps limits count machine)
    (bounded : limits.maxStackSize = some limit) :
    machine.stack.size ≤ limit ∨ machine.Stuck := by
  induction called with
  | idle => exact .inl (Nat.zero_le _)
  | start function args called ih => exact (respects_start _ bounded function args).contained
  | @step count machine host globals called ih =>
      have respects : Respects limit (machine.step ⟨limits, host, globals⟩) :=
        respects_step bounded ih
      exact respects.contained
  | reset called ih => exact .inl (Nat.zero_le _)

/-- A run from the start is a start and a number of steps. -/
theorem interpret {host : Option Registry} {globals : Option Globals} {length : Nat}
    {next : Machine} {function : Function} {args : List Value}
    (called : AfterSteps limits count machine)
    (ran : machine.interpret ⟨limits, host, globals⟩ length function args = (.running, next)) :
    AfterSteps limits length next := by
  induction length generalizing next with
  | zero =>
      obtain ⟨started, entered, ran⟩ := interpret_eq_running.mp ran
      cases ran
      have first := called.start function args
      rwa [entered] at first
  | succ length ih =>
      obtain ⟨last, ran, taken⟩ := interpret_succ_eq_running.mp ran
      have following := (ih ran).step host globals
      rwa [taken] at following

theorem withinLimits_of_step {host : Option Registry} {globals : Option Globals} {status : Status}
    {next : Machine} (called : AfterSteps limits count machine)
    (taken : machine.step ⟨limits, host, globals⟩ = (status, next))
    (success : ∀ fault, status ≠ .faulted fault) : next.WithinLimits limits := by
  constructor
  · intro limit bounded
    have respects : Respects limit (machine.step ⟨limits, host, globals⟩) :=
      respects_step bounded (called.contained bounded)
    rw [taken] at respects
    exact respects.size_le success
  · cases allowed : limits.checkSteps machine.counted.steps with
    | error fault =>
        rw [step_eq_counted, allowed] at taken
        cases taken
        exact absurd rfl (success fault)
    | ok =>
        have counted := machine.steps_step ⟨limits, host, globals⟩
        rw [taken] at counted
        dsimp only at counted
        rw [counted]
        exact Limits.checkSteps_eq_ok allowed

end AfterSteps

theorem withinLimits_of_start {limits : Limits} {machine next : Machine} {function : Function}
    {args : List Value} (started : machine.start limits function args = (.running, next)) :
    next.WithinLimits limits := by
  obtain ⟨-, room, rfl⟩ := start_eq_running started
  exact ⟨Limits.checkStack_eq_ok room, fun limit _ => Nat.zero_le limit⟩

/-- Whatever calls came before and however they ended, a call that succeeds leaves a machine within
its limits on stack and steps, and the machine has counted the steps called for since the last
start. -/
theorem success_within_limits {limits : Limits} {count : Nat} {machine : Machine}
    (called : AfterSteps limits count machine) :
    (∀ function args next, machine.start limits function args = (.running, next) →
      next.WithinLimits limits ∧ next.steps = 0) ∧
    (∀ host globals status next, machine.step ⟨limits, host, globals⟩ = (status, next) →
      (∀ fault, status ≠ .faulted fault) →
      next.WithinLimits limits ∧ next.steps = count + 1) ∧
    ∀ host globals fuel function args value next,
      machine.interpret ⟨limits, host, globals⟩ fuel function args = (.returned value, next) →
      next.WithinLimits limits := by
  refine ⟨?_, ?_, ?_⟩
  · intro function args next started
    have counted := (called.start function args).steps_eq
    rw [started] at counted
    exact ⟨withinLimits_of_start started, counted⟩
  · intro host globals status next taken success
    have counted := (called.step host globals).steps_eq
    rw [taken] at counted
    exact ⟨called.withinLimits_of_step taken success, counted⟩
  · intro host globals fuel function args value next ended
    obtain ⟨length, last, ran, final⟩ := interpret_eq_returned ended
    exact (called.interpret ran).withinLimits_of_step final (by simp)

/-- Limits under which `poking` can allocate its cell but not enter its callee. -/
def tight : Limits :=
  ⟨none, some 4, some 2⟩

theorem success_within_limits_poking :
    (∃ next, (pokingAfter 0).step ⟨tight, none, none⟩ = (.running, next) ∧
      next.WithinLimits tight ∧ next.steps = 1) ∧
    ∃ crowded, (pokingAfter 1).step ⟨tight, none, none⟩ =
        (.faulted (.stackLimitExceeded 4), crowded) ∧ crowded.stack.size = 6 ∧
      ∃ next, crowded.start tight poking [] = (.running, next) ∧
        next.WithinLimits tight ∧ next.steps = 0 := by
  have started : AfterSteps tight 0 (pokingAfter 0) := .start poking [] .idle
  have allocated : AfterSteps tight 1 (pokingAfter 1) := .step none none started
  obtain ⟨-, steps, -⟩ := success_within_limits started
  obtain ⟨restarts, -, -⟩ := success_within_limits (allocated.step none none)
  refine ⟨⟨_, rfl, steps none none .running _ rfl (by simp)⟩, _, rfl, by decide, _, rfl, ?_⟩
  exact restarts poking [] _ rfl

end Machine
end RegisterMachine
