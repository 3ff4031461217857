import RegisterMachine.Proofs.Machine.Lockstep

/-!
The same code in wider surroundings.

Surroundings are wider if they have higher limits or more callbacks. A run goes on in them as it
does in the narrower ones, until it ends there in a fault for what they lack. Nor does it matter
what the two machines did before: all that is left of it is what they have printed.
-/
set_option autoImplicit false

namespace RegisterMachine

/-- The second computation gives what the first gives, unless that is a fault of the kind `lacks`. -/
def AgreesUnless {α : Type} (lacks : Fault → Prop) (first second : Except Fault α) : Prop :=
  second = first ∨ ∃ fault, first = .error fault ∧ lacks fault

namespace AgreesUnless

variable {α β : Type} {lacks : Fault → Prop} {first second : Except Fault α}

theorem refl (computation : Except Fault α) : AgreesUnless lacks computation computation :=
  .inl rfl

theorem bind {next next' : α → Except Fault β} (agree : AgreesUnless lacks first second)
    (onward : ∀ value, AgreesUnless lacks (next value) (next' value)) :
    AgreesUnless lacks (first >>= next) (second >>= next') := by
  rcases agree with rfl | ⟨fault, rfl, lacked⟩
  · cases second with
    | error fault => exact .inl rfl
    | ok value => exact onward value
  · exact .inr ⟨fault, rfl, lacked⟩

end AgreesUnless

/-- The second surroundings let pass, apart from the number of steps, whatever the first do, and the
first refuse more only with faults of the kind `lacks`. -/
structure Environment.Widened (lacks : Fault → Prop) (env wider : Environment) : Prop where
  globals : wider.globals = env.globals
  host : Option.Rel (fun registry more => ∀ id invocation,
    AgreesUnless lacks (registry.invoke id invocation) (more.invoke id invocation))
    env.host wider.host
  depth : ∀ frames,
    AgreesUnless lacks (env.limits.checkDepth frames) (wider.limits.checkDepth frames)
  stack : ∀ stack, AgreesUnless lacks (env.limits.checkStack stack) (wider.limits.checkStack stack)

theorem Environment.Widened.of_limits {lacks : Fault → Prop} {env : Environment} {wider : Limits}
    (depth : ∀ frames, AgreesUnless lacks (env.limits.checkDepth frames) (wider.checkDepth frames))
    (stack : ∀ stack, AgreesUnless lacks (env.limits.checkStack stack) (wider.checkStack stack)) :
    env.Widened lacks { env with limits := wider } := by
  refine ⟨rfl, ?_, depth, stack⟩
  cases env.host with
  | none => exact .none
  | some registry => exact .some fun id invocation => .refl _

namespace Machine

/-- Machines that differ at most in what they had printed before, `earlier` and `earlier'`. -/
structure Twin (earlier earlier' : Array String) (machine twin : Machine) : Prop where
  stack : twin.stack = machine.stack
  frames : twin.frames = machine.frames
  steps : twin.steps = machine.steps
  output : ∃ lines : List String, machine.output = earlier ++ lines ∧ twin.output = earlier' ++ lines

/-- The second outcome is that of a twin, unless the first is a fault of the kind `lacks`. -/
inductive Follows (lacks : Fault → Prop) (earlier earlier' : Array String) :
    Status × Machine → Status × Machine → Prop
  | lacking {fault : Fault} {machine : Machine} {outcome : Status × Machine}
      (lacked : lacks fault) : Follows lacks earlier earlier' (.faulted fault, machine) outcome
  | alike {status : Status} {machine twin : Machine} (twins : Twin earlier earlier' machine twin) :
      Follows lacks earlier earlier' (status, machine) (status, twin)

variable {lacks : Fault → Prop} {earlier earlier' : Array String} {machine twin : Machine}
  {env wider : Environment}

/-! ## Actions -/

namespace Twin

theorem eq (twins : Twin earlier earlier machine twin) : twin = machine := by
  obtain ⟨lines, here, there⟩ := twins.output
  cases machine
  cases twin
  cases twins.stack
  cases twins.frames
  cases twins.steps
  cases here
  cases there
  rfl

theorem restack (twins : Twin earlier earlier' machine twin) (stack : ValueStack) :
    Twin earlier earlier' { machine with stack := stack } { twin with stack := stack } :=
  ⟨rfl, twins.frames, twins.steps, twins.output⟩

theorem print (twins : Twin earlier earlier' machine twin) (lines : List String) :
    Twin earlier earlier' { machine with output := machine.output ++ lines }
      { twin with output := twin.output ++ lines } := by
  refine ⟨twins.stack, twins.frames, twins.steps, ?_⟩
  obtain ⟨printed, here, there⟩ := twins.output
  refine ⟨printed ++ lines, ?_, ?_⟩
  · apply Array.ext'
    simp [here]
  · apply Array.ext'
    simp [there]

theorem counted (twins : Twin earlier earlier' machine twin) :
    Twin earlier earlier' machine.counted twin.counted :=
  ⟨twins.stack, twins.frames, congrArg (· + 1) twins.steps, twins.output⟩

theorem goTo (twins : Twin earlier earlier' machine twin) (pc : Nat) :
    Follows lacks earlier earlier' (machine.goTo pc) (twin.goTo pc) := by
  simp only [Machine.goTo, twins.frames]
  split
  · exact .alike twins
  · split
    · exact .alike ⟨twins.stack, rfl, twins.steps, twins.output⟩
    · exact .alike twins

theorem assign (twins : Twin earlier earlier' machine twin) (frame : Frame) (dest : Slot)
    (value : Value) :
    Follows lacks earlier earlier' (machine.assign frame dest value)
      (twin.assign frame dest value) := by
  simp only [Machine.assign, twins.stack]
  split
  · exact (twins.restack _).goTo _
  · exact .alike twins

theorem allocate (twins : Twin earlier earlier' machine twin) (widened : env.Widened lacks wider)
    (frame : Frame) (dest : Slot) :
    Follows lacks earlier earlier' (machine.allocate env.limits frame dest)
      (twin.allocate wider.limits frame dest) := by
  simp only [Machine.allocate, twins.stack]
  split
  · exact .alike twins
  · rcases widened.stack (machine.stack.push .undefined) with same | ⟨fault, refused, lacked⟩
    · rw [same]
      split
      · exact .alike (twins.restack _)
      · exact (twins.restack _).assign frame dest _
    · rw [refused]
      exact .lacking lacked

theorem enter (twins : Twin earlier earlier' machine twin) (widened : env.Widened lacks wider)
    (function : Function) (args : List Value) :
    Follows lacks earlier earlier' (machine.enter env.limits function args)
      (twin.enter wider.limits function args) := by
  simp only [Machine.enter, twins.stack, twins.frames]
  rcases widened.stack (machine.stack.pushWindow args function.numLocals.toNat) with
    same | ⟨fault, refused, lacked⟩
  · rw [same]
    split
    · exact .alike ⟨rfl, rfl, twins.steps, twins.output⟩
    · exact .alike ⟨rfl, rfl, twins.steps, twins.output⟩
  · rw [refused]
    exact .lacking lacked

theorem leave (twins : Twin earlier earlier' machine twin) (value : Value) :
    Follows lacks earlier earlier' (machine.leave value) (twin.leave value) := by
  simp only [Machine.leave, twins.frames, twins.stack]
  split
  · exact .alike twins
  · rename_i frame callers running
    have popped : Twin earlier earlier'
        { machine with stack := machine.stack.truncate frame.bottom, frames := callers }
        { twin with stack := machine.stack.truncate frame.bottom, frames := callers } :=
      ⟨rfl, rfl, twins.steps, twins.output⟩
    split
    · exact .alike popped
    · split
      · exact popped.assign _ _ value
      · exact .alike popped
      · exact .alike popped

theorem perform (twins : Twin earlier earlier' machine twin) (widened : env.Widened lacks wider)
    (frame : Frame) (action : Action) :
    Follows lacks earlier earlier' (machine.perform env.limits frame action)
      (twin.perform wider.limits frame action) := by
  cases action with
  | assign dest value => exact twins.assign frame dest value
  | allocate dest => exact twins.allocate widened frame dest
  | store cell value =>
      simp only [Machine.perform, twins.stack]
      exact (twins.restack _).goTo _
  | goTo pc => exact twins.goTo pc
  | enter callee args => exact twins.enter widened callee args
  | leave value => exact twins.leave value
  | accept dest reply => exact (twins.print reply.lines).assign frame dest reply.value

/-! ## Reading -/

theorem planCall (twins : Twin earlier earlier' machine twin) (widened : env.Widened lacks wider)
    (frame : Frame) (callee : FuncId) (args : List Slot) :
    AgreesUnless lacks (env.planCall machine frame callee args)
      (wider.planCall twin frame callee args) := by
  simp only [Environment.planCall, twins.stack, twins.frames]
  split
  · exact .refl _
  · split
    · exact .refl _
    · apply (widened.depth machine.frames).bind
      intro shallow
      exact .refl _

theorem planExecute (twins : Twin earlier earlier' machine twin) (widened : env.Widened lacks wider)
    (frame : Frame) (dest callee : Slot) (args : List Slot) :
    AgreesUnless lacks (env.planExecute machine frame dest callee args)
      (wider.planExecute twin frame dest callee args) := by
  simp only [Environment.planExecute, twins.stack, widened.globals]
  apply (AgreesUnless.refl _).bind
  intro id
  have host := widened.host
  revert host
  generalize env.host = registry
  generalize wider.host = more
  intro host
  cases host with
  | none => exact .refl _
  | some invokes =>
      apply (AgreesUnless.refl _).bind
      intro values
      apply (invokes id ⟨values, env.globals⟩).bind
      intro reply
      exact .refl _

theorem plan (twins : Twin earlier earlier' machine twin) (widened : env.Widened lacks wider)
    (frame : Frame) (instruction : Instruction) :
    AgreesUnless lacks (env.plan machine frame instruction)
      (wider.plan twin frame instruction) := by
  cases instruction with
  | call dest callee args => exact twins.planCall widened frame callee args
  | execute dest callee args => exact twins.planExecute widened frame dest callee args
  | _ =>
      simp only [Environment.plan, twins.stack]
      exact .refl _

/-! ## Steps -/

theorem step (twins : Twin earlier earlier' machine twin) (widened : env.Widened lacks wider)
    (allowed : AgreesUnless lacks (env.limits.checkSteps machine.counted.steps)
      (wider.limits.checkSteps machine.counted.steps)) :
    Follows lacks earlier earlier' (machine.step env) (twin.step wider) := by
  have counted := twins.counted
  rw [step_eq_counted, step_eq_counted, counted.steps, counted.frames]
  rcases allowed with same | ⟨fault, refused, lacked⟩
  · rw [same]
    cases env.limits.checkSteps machine.counted.steps with
    | error fault => exact .alike counted
    | ok =>
        cases machine.counted.frames with
        | nil => exact .alike counted
        | cons frame callers =>
            cases current : frame.instruction with
            | error fault =>
                simp only [current]
                exact .alike counted
            | ok instruction =>
                simp only [current]
                rcases counted.plan widened frame instruction with same | ⟨fault, refused, lacked⟩
                · rw [same]
                  split
                  · exact .alike counted
                  · exact counted.perform widened frame _
                · rw [refused]
                  exact .lacking lacked
  · rw [refused]
    exact .lacking lacked

theorem run {fuel : Nat} (twins : Twin earlier earlier' machine twin)
    (widened : env.Widened lacks wider)
    (allowed : ∀ count ≤ machine.steps + fuel,
      AgreesUnless lacks (env.limits.checkSteps count) (wider.limits.checkSteps count)) :
    Follows lacks earlier earlier' (run env fuel machine) (run wider fuel twin) := by
  induction fuel generalizing machine twin with
  | zero => exact .alike twins
  | succ fuel ih =>
      have first : Follows lacks earlier earlier' (machine.step env) (twin.step wider) :=
        twins.step widened (allowed _ (by simp [Machine.counted]))
      simp only [Machine.run]
      cases taken : machine.step env with
      | mk status next =>
          rw [taken] at first
          generalize twin.step wider = outcome at first ⊢
          cases first with
          | lacking lacked => exact .lacking lacked
          | alike nextTwins =>
              cases status with
              | running =>
                  have number := (progress_of_step taken).steps
                  apply ih nextTwins
                  intro count bound
                  exact allowed count (by omega)
              | returned value => exact .alike nextTwins
              | faulted fault => exact .alike nextTwins

end Twin

/-! ## Runs from the start -/

theorem follows_start (widened : env.Widened lacks wider) (before before' : Machine)
    (function : Function) (args : List Value) :
    Follows lacks before.output before'.output (before.start env.limits function args)
      (before'.start wider.limits function args) := by
  have rested : Twin before.output before'.output before.reset before'.reset :=
    ⟨rfl, rfl, rfl, [], by simp [reset], by simp [reset]⟩
  simp only [start]
  split
  · exact rested.enter widened function args
  · exact .alike rested

theorem follows_interpret {fuel : Nat} (widened : env.Widened lacks wider)
    (allowed : ∀ count ≤ fuel,
      AgreesUnless lacks (env.limits.checkSteps count) (wider.limits.checkSteps count))
    (before before' : Machine) (function : Function) (args : List Value) :
    Follows lacks before.output before'.output (before.interpret env fuel function args)
      (before'.interpret wider fuel function args) := by
  have started := follows_start widened before before' function args
  simp only [interpret]
  cases entered : before.start env.limits function args with
  | mk status first =>
      rw [entered] at started
      generalize before'.start wider.limits function args = outcome at started ⊢
      cases started with
      | lacking lacked => exact .lacking lacked
      | alike twins =>
          cases status with
          | running =>
              obtain ⟨-, -, rfl⟩ := start_eq_running entered
              apply twins.run widened
              intro count bound
              exact allowed count (by simpa using bound)
          | returned value => exact .alike twins
          | faulted fault => exact .alike twins

end Machine
end RegisterMachine
