import RegisterMachine.Proofs.Machine.Faults

/-!
The shape of stack and frames in every machine that code can bring about.

`Activations` says how the frames of a machine stand to each other: the outermost one begins at the
bottom of the stack, and every other one was entered by a call at which the frame below it still
waits. Together with the room that the running frame has on the stack this makes a machine
`Consistent`. Every operation keeps machines consistent, also where it ends in a fault, so a return
always finds a call to go back to.
-/
set_option autoImplicit false

namespace RegisterMachine

theorem Function.callee?_eq_some {caller callee : Function} {id : FuncId}
    (found : caller.callee? id = some callee) :
    callee.stamp = caller.stamp ∧ callee.module = caller.module ∧ callee.id = id := by
  unfold Function.callee? Function.of? at found
  split at found
  · cases found
    exact ⟨rfl, rfl, rfl⟩
  · cases found

/-- The values that a function is entered with and its locals fill its frame. -/
theorem ValueStack.size_pushWindow_eq_frameSize (stack : ValueStack) {function : Function}
    {args : List Value} (arity : args.length = function.argCount.toNat) :
    (stack.pushWindow args function.numLocals.toNat).size = stack.size + function.frameSize := by
  rw [size_pushWindow, arity, Nat.add_assoc]
  rfl

namespace Frame

/-- The frame is at an instruction of its function, or at the beginning of an empty one. -/
def InCode (frame : Frame) : Prop :=
  frame.pc < frame.function.length ∨ frame.function.length = 0 ∧ frame.pc = 0

theorem inCode_entry (bottom : Nat) (function : Function) : InCode ⟨bottom, function, 0⟩ := by
  rcases Nat.eq_zero_or_pos function.length with empty | nonempty
  · exact .inr ⟨empty, rfl⟩
  · exact .inl nonempty

/-- The frame `caller` waits at a call for `callee`, a frame of the same module whose slots begin
above its own. -/
structure CalledBy (callee caller : Frame) : Prop where
  sameStamp : callee.function.stamp = caller.function.stamp
  sameModule : callee.function.module = caller.function.module
  above : caller.bottom + caller.function.frameSize ≤ callee.bottom
  site : ∃ dest args, caller.instruction = .ok (.call dest callee.function.id args) ∧
    args.length = callee.function.argCount.toNat

end Frame

/-- The frames of a machine, the running one first. -/
inductive Activations : List Frame → Prop
  | none : Activations []
  | outermost {frame : Frame} (bottom : frame.bottom = 0) (inCode : frame.InCode) :
      Activations [frame]
  | nested {callee caller : Frame} {rest : List Frame} (called : callee.CalledBy caller)
      (inCode : callee.InCode) (outer : Activations (caller :: rest)) :
      Activations (callee :: caller :: rest)

namespace Activations

theorem callers {frame : Frame} {rest : List Frame} (frames : Activations (frame :: rest)) :
    Activations rest := by
  cases frames with
  | outermost bottom inCode => exact .none
  | nested called inCode outer => exact outer

theorem move {frame : Frame} {rest : List Frame} {pc : Nat}
    (frames : Activations (frame :: rest)) (inside : pc < frame.function.length) :
    Activations ({ frame with pc := pc } :: rest) := by
  cases frames with
  | outermost bottom inCode => exact .outermost bottom (.inl inside)
  | nested called inCode outer =>
      exact .nested ⟨called.sameStamp, called.sameModule, called.above, called.site⟩
        (.inl inside) outer

theorem enter {frame : Frame} {rest : List Frame} {dest : Slot} {callee : FuncId}
    {args : List Slot} {function : Function} {bottom : Nat}
    (frames : Activations (frame :: rest))
    (current : frame.instruction = .ok (.call dest callee args))
    (found : frame.function.callee? callee = some function)
    (arity : args.length = function.argCount.toNat)
    (above : frame.bottom + frame.function.frameSize ≤ bottom) :
    Activations (⟨bottom, function, 0⟩ :: frame :: rest) := by
  obtain ⟨sameStamp, sameModule, rfl⟩ := Function.callee?_eq_some found
  exact .nested ⟨sameStamp, sameModule, above, dest, args, current, arity⟩
    (Frame.inCode_entry bottom function) frames

theorem inCode {frames : List Frame} (activations : Activations frames) :
    ∀ frame ∈ frames, frame.InCode := by
  induction activations with
  | none => simp
  | outermost bottom inCode => simpa using inCode
  | nested called inCode outer ih =>
      intro frame member
      rcases List.mem_cons.mp member with rfl | member
      · exact inCode
      · exact ih frame member

theorem outermost_bottom {frames : List Frame} (activations : Activations frames) :
    ∀ frame ∈ frames.getLast?, frame.bottom = 0 := by
  induction activations with
  | none => simp
  | outermost bottom inCode => simpa using bottom
  | nested called inCode outer ih => simpa using ih

theorem calledBy {frames : List Frame} (activations : Activations frames) {depth : Nat}
    {callee caller : Frame} (inner : frames[depth]? = some callee)
    (next : frames[depth + 1]? = some caller) : callee.CalledBy caller := by
  induction activations generalizing depth with
  | none => simp at inner
  | outermost bottom inCode => simp at next
  | nested called inCode outer ih =>
      cases depth with
      | zero =>
          simp only [List.getElem?_cons_zero, List.getElem?_cons_succ, Option.some.injEq]
            at inner next
          subst inner next
          exact called
      | succ depth => exact ih inner next

/-- Every frame belongs to the module of the running one. -/
theorem module_eq_running {running : Frame} {rest : List Frame}
    (activations : Activations (running :: rest)) :
    ∀ frame ∈ running :: rest, frame.function.stamp = running.function.stamp ∧
      frame.function.module = running.function.module := by
  induction rest generalizing running with
  | nil => simp
  | cons caller rest ih =>
      cases activations with
      | nested called inCode outer =>
          intro frame member
          rcases List.mem_cons.mp member with rfl | member
          · exact ⟨rfl, rfl⟩
          · obtain ⟨sameStamp, sameModule⟩ := ih outer frame member
            exact ⟨sameStamp.trans called.sameStamp.symm, sameModule.trans called.sameModule.symm⟩

theorem same_module {frames : List Frame} (activations : Activations frames) {a b : Frame}
    (left : a ∈ frames) (right : b ∈ frames) :
    a.function.stamp = b.function.stamp ∧ a.function.module = b.function.module := by
  cases frames with
  | nil => simp at left
  | cons running rest =>
      obtain ⟨leftStamp, leftModule⟩ := activations.module_eq_running a left
      obtain ⟨rightStamp, rightModule⟩ := activations.module_eq_running b right
      exact ⟨leftStamp.trans rightStamp.symm, leftModule.trans rightModule.symm⟩

end Activations

namespace Machine

/-- The frames are activations, and the slots of the running one are on the stack. -/
structure Consistent (machine : Machine) : Prop where
  activations : Activations machine.frames
  window : ∀ frame ∈ machine.frames.head?,
    frame.bottom + frame.function.frameSize ≤ machine.stack.size

namespace Consistent

variable {machine : Machine}

theorem of_frames_eq_nil (idle : machine.frames = []) : machine.Consistent where
  activations := idle ▸ .none
  window := by simp [idle]

/-- Frames that stay as they are want no more room. -/
theorem of_size_le {next : Machine} (consistent : machine.Consistent)
    (same : next.frames = machine.frames) (grown : machine.stack.size ≤ next.stack.size) :
    next.Consistent where
  activations := same ▸ consistent.activations
  window := by
    intro frame top
    exact Nat.le_trans (consistent.window frame (same ▸ top)) grown

theorem put (consistent : machine.Consistent) (index : Nat) (value : Value) :
    Consistent { machine with stack := machine.stack.put index value } :=
  consistent.of_size_le rfl (by simp)

theorem counted (consistent : machine.Consistent) : machine.counted.Consistent :=
  consistent.of_size_le rfl (Nat.le_refl _)

theorem window_running {frame : Frame} {callers : List Frame} (consistent : machine.Consistent)
    (running : machine.frames = frame :: callers) :
    frame.bottom + frame.function.frameSize ≤ machine.stack.size :=
  consistent.window frame (by simp [running])

/-! ### Operations -/

theorem goTo (consistent : machine.Consistent) (pc : Nat) : (machine.goTo pc).2.Consistent := by
  cases running : machine.frames with
  | nil => simpa [Machine.goTo, running] using consistent
  | cons frame callers =>
      rcases Nat.lt_or_ge pc frame.function.length with inside | outside
      · have window := consistent.window_running running
        rw [goTo_of_lt running inside]
        refine ⟨(running ▸ consistent.activations).move inside, ?_⟩
        rintro moved ⟨⟩
        exact window
      · rw [goTo_of_le running outside]
        exact consistent

theorem assign (consistent : machine.Consistent) (frame : Frame) (dest : Slot) (value : Value) :
    (machine.assign frame dest value).2.Consistent := by
  rcases Nat.lt_or_ge (frame.bottom + dest.toNat) machine.stack.size with inside | outside
  · rw [assign_of_lt inside]
    exact (consistent.put _ value).goTo _
  · rw [assign_of_le outside]
    exact consistent

theorem allocate (consistent : machine.Consistent) (limits : Limits) (frame : Frame)
    (dest : Slot) : (machine.allocate limits frame dest).2.Consistent := by
  have grown : Consistent { machine with stack := machine.stack.push .undefined } :=
    consistent.of_size_le rfl (by simp)
  simp only [Machine.allocate]
  split
  · exact consistent
  · split
    · exact grown
    · exact grown.assign frame dest _

/-- The frame that a call enters stands on the stack as it was before its slots were added. -/
theorem enter {env : Environment} {frame : Frame} {callers : List Frame} {dest : Slot}
    {callee : FuncId} {args : List Slot} {function : Function} {values : List Value}
    (consistent : machine.Consistent) (running : machine.frames = frame :: callers)
    (current : frame.instruction = .ok (.call dest callee args))
    (found : frame.function.callee? callee = some function)
    (arity : args.length = function.argCount.toNat) (passed : values.length = args.length) :
    (machine.enter env.limits function values).2.Consistent := by
  simp only [Machine.enter]
  split
  · exact consistent.of_size_le rfl (by simp; omega)
  · constructor
    · rw [running]
      exact (running ▸ consistent.activations).enter current found arity
        (consistent.window_running running)
    · rintro entered ⟨⟩
      exact Nat.le_of_eq
        (machine.stack.size_pushWindow_eq_frameSize (passed.trans arity)).symm

/-- The slots of a waiting frame lie below the frame that returns to it. -/
theorem pop {frame : Frame} {callers : List Frame} (consistent : machine.Consistent)
    (running : machine.frames = frame :: callers) :
    Consistent { machine with
      stack := machine.stack.truncate frame.bottom
      frames := callers } := by
  have activations := consistent.activations
  rw [running] at activations
  refine ⟨activations.callers, ?_⟩
  intro caller top
  cases activations with
  | outermost bottom inCode => cases top
  | nested called inCode outer =>
      cases top
      have above := called.above
      have window := consistent.window_running running
      simp only [ValueStack.size_truncate]
      omega

theorem leave (consistent : machine.Consistent) (value : Value) :
    (machine.leave value).2.Consistent := by
  cases running : machine.frames with
  | nil => simpa [Machine.leave, running] using consistent
  | cons frame callers =>
      have popped := consistent.pop running
      cases callers with
      | nil =>
          rw [leave_outermost running]
          exact popped
      | cons caller rest =>
          simp only [Machine.leave, running]
          split
          · exact popped.assign caller _ value
          · exact popped
          · exact popped

theorem perform {env : Environment} {frame : Frame} {callers : List Frame}
    {instruction : Instruction} {action : Action} (consistent : machine.Consistent)
    (running : machine.frames = frame :: callers)
    (current : frame.instruction = .ok instruction)
    (planned : Planned env machine frame instruction action) :
    (machine.perform env.limits frame action).2.Consistent := by
  cases planned with
  | assign target callee => exact consistent.assign frame _ _
  | allocate => exact consistent.allocate env.limits frame _
  | store addressed read => exact (consistent.put _ _).goTo _
  | jump => exact consistent.goTo _
  | branch choice => exact consistent.goTo _
  | enter found arity shallow read =>
      exact consistent.enter running current found arity (length_of_mapM_eq_ok read)
  | leave read => exact consistent.leave _
  | @accept dest callee args reply =>
      have heard : Consistent { machine with output := machine.output ++ reply.lines } :=
        consistent.of_size_le rfl (Nat.le_refl _)
      exact heard.assign frame dest reply.value

theorem step (consistent : machine.Consistent) (env : Environment) :
    (step env machine).2.Consistent := by
  have view := stepped env machine
  generalize Machine.step env machine = outcome at view ⊢
  cases view with
  | limit exceeded => exact consistent.counted
  | idle empty => exact consistent.counted
  | offCode running off => exact consistent.counted
  | refused running current refusal => exact consistent.counted
  | performed running current planned => exact consistent.counted.perform running current planned

/-- Starting forgets what was there before. -/
theorem start (limits : Limits) (machine : Machine) (function : Function) (args : List Value) :
    (start limits machine function args).2.Consistent := by
  simp only [Machine.start]
  split
  · rename_i arity
    simp only [Machine.enter]
    split
    · exact .of_frames_eq_nil rfl
    · refine ⟨.outermost rfl (Frame.inCode_entry 0 function), ?_⟩
      rintro entered ⟨⟩
      exact Nat.le_of_eq (ValueStack.empty.size_pushWindow_eq_frameSize arity).symm
  · exact .of_frames_eq_nil rfl

theorem run (consistent : machine.Consistent) (env : Environment) (fuel : Nat) :
    (run env fuel machine).2.Consistent := by
  induction fuel generalizing machine with
  | zero => exact consistent
  | succ fuel ih =>
      have stepped := consistent.step env
      simp only [Machine.run]
      split
      · rename_i next taken
        rw [taken] at stepped
        exact ih stepped
      · exact stepped

theorem interpret (env : Environment) (fuel : Nat) (machine : Machine) (function : Function)
    (args : List Value) : (interpret env fuel machine function args).2.Consistent := by
  have started := start env.limits machine function args
  simp only [Machine.interpret]
  split
  · rename_i next entered
    rw [entered] at started
    exact started.run env fuel
  · exact started

theorem of_interpret {env : Environment} {fuel : Nat} {before : Machine} {function : Function}
    {args : List Value} {status : Status}
    (ran : before.interpret env fuel function args = (status, machine)) : machine.Consistent := by
  have consistent := interpret env fuel before function args
  rw [ran] at consistent
  exact consistent

end Consistent

/-! ## Machines that calls bring about -/

/-- The machines that a new one can be turned into by calls in any order, with any functions,
arguments and surroundings, whatever the calls before them ended in. -/
inductive Reachable : Machine → Prop
  | idle : Reachable .idle
  | start {machine : Machine} (limits : Limits) (function : Function) (args : List Value)
      (reached : Reachable machine) : Reachable (machine.start limits function args).2
  | step {machine : Machine} (env : Environment) (reached : Reachable machine) :
      Reachable (machine.step env).2
  | interpret {machine : Machine} (env : Environment) (fuel : Nat) (function : Function)
      (args : List Value) (reached : Reachable machine) :
      Reachable (machine.interpret env fuel function args).2
  | reset {machine : Machine} (reached : Reachable machine) : Reachable machine.reset

theorem Reachable.consistent {machine : Machine} (reached : Reachable machine) :
    machine.Consistent := by
  induction reached with
  | idle => exact .of_frames_eq_nil rfl
  | start limits function args reached ih => exact .start limits _ function args
  | step env reached ih => exact ih.step env
  | interpret env fuel function args reached ih => exact .interpret env fuel _ function args
  | reset reached ih => exact .of_frames_eq_nil rfl

/-- A return finds the call that is waiting for it. -/
theorem StepFault.ne_notACallSite {env : Environment} {machine : Machine} {fault : Fault}
    (stopped : StepFault env machine fault) (consistent : machine.Consistent) (pc : Nat) :
    fault ≠ .notACallSite pc := by
  rintro rfl
  cases stopped with
  | refused running current refusal => cases refusal
  | noCall running site other =>
      have activations := consistent.activations
      rw [running] at activations
      cases activations with
      | nested called inCode outer =>
          obtain ⟨dest, args, call, -⟩ := called.site
          rw [site] at call
          cases call
          cases other

/-- How stack and frames stand in every machine that calls bring about: one module for all frames;
the outermost frame begins at the bottom of the stack; each frame begins above the slots of the one
that called it; the slots of the running frame are on the stack; every frame is in its code; and
every waiting frame is at a call of the frame above it. So a return never meets an instruction that
is no call. -/
theorem frames_nested_of_reachable {machine : Machine} (reached : Reachable machine) :
    (∀ a ∈ machine.frames, ∀ b ∈ machine.frames,
      a.function.stamp = b.function.stamp ∧ a.function.module = b.function.module) ∧
    (∀ outermost ∈ machine.frames.getLast?, outermost.bottom = 0) ∧
    (∀ depth inner outer, machine.frames[depth]? = some inner →
      machine.frames[depth + 1]? = some outer →
      outer.bottom + outer.function.frameSize ≤ inner.bottom) ∧
    (∀ running ∈ machine.frames.head?,
      running.bottom + running.function.frameSize ≤ machine.stack.size) ∧
    (∀ frame ∈ machine.frames, frame.pc < frame.function.length ∨
      frame.function.length = 0 ∧ frame.pc = 0) ∧
    (∀ depth inner outer, machine.frames[depth]? = some inner →
      machine.frames[depth + 1]? = some outer →
      ∃ dest args, outer.instruction = .ok (.call dest inner.function.id args) ∧
        args.length = inner.function.argCount.toNat) ∧
    ∀ env pc, (machine.step env).1 ≠ .faulted (.notACallSite pc) := by
  have consistent := reached.consistent
  have activations := consistent.activations
  refine ⟨?_, activations.outermost_bottom, ?_, consistent.window, activations.inCode, ?_, ?_⟩
  · intro a left b right
    exact activations.same_module left right
  · intro depth inner outer here next
    exact (activations.calledBy here next).above
  · intro depth inner outer here next
    exact (activations.calledBy here next).site
  · intro env pc stopped
    exact (stepFault_of_step (Prod.ext stopped rfl)).ne_notACallSite consistent pc rfl

/-- A function that allocates a cell, has a second function write to it, and returns what the cell
then holds. -/
def poking : Function where
  stamp := ⟨0, 0⟩
  module := ⟨[
    ⟨some "main", 0, 3, some [.allocate .any 0, .call 1 ⟨1⟩ [0], .load .any 2 0, .leave 2]⟩,
    ⟨some "poke", 1, 1, some [.constantInt32 1 9, .store .any 0 1, .leave 1]⟩]⟩
  id := ⟨0⟩
  inModule := by decide

/-- The machine that runs `poking`, after this many instructions. -/
def pokingAfter (fuel : Nat) : Machine :=
  (Machine.idle.interpret ⟨.unlimited, none, none⟩ fuel poking []).2

theorem frames_nested_of_reachable_poking :
    Reachable (pokingAfter 3) ∧ (pokingAfter 3).frames.map (·.bottom) = [4, 0] ∧
      ∀ env pc, ((pokingAfter 3).step env).1 ≠ .faulted (.notACallSite pc) := by
  have reached : Reachable (pokingAfter 3) := .interpret _ 3 poking [] .idle
  obtain ⟨-, -, -, -, -, -, never⟩ := frames_nested_of_reachable reached
  exact ⟨reached, by decide, never⟩

end Machine
end RegisterMachine
