import RegisterMachine.Proofs.Machine.Consistency

/-!
What the limit on the call depth bounds.

A call at the limit is refused, while the outermost function is entered whatever the limit is. So no
machine has more frames than its limit grants, except that a limit of zero lets the outermost frame
through.
-/
set_option autoImplicit false

namespace RegisterMachine

theorem Limits.checkDepth_eq_ok {limits : Limits} {limit : Nat} {frames : List Frame}
    (bounded : limits.maxCallDepth = some limit) (shallow : limits.checkDepth frames = .ok ()) :
    frames.length < limit := by
  simp only [checkDepth, bounded] at shallow
  split at shallow
  · assumption
  · cases shallow

namespace Machine

/-! ## Frames that operations add -/

section Operations

variable (machine : Machine) (limits : Limits) (frame : Frame)

theorem depth_goTo (pc : Nat) : (machine.goTo pc).2.depth = machine.depth := by
  simp only [goTo]
  split
  · rfl
  · rename_i frame callers running
    split
    · simp [depth, running]
    · rfl

theorem depth_assign (dest : Slot) (value : Value) :
    (machine.assign frame dest value).2.depth = machine.depth := by
  simp only [assign]
  split
  · exact depth_goTo _ _
  · rfl

theorem depth_allocate (dest : Slot) :
    (machine.allocate limits frame dest).2.depth = machine.depth := by
  simp only [allocate]
  split
  · rfl
  · split
    · rfl
    · exact depth_assign _ _ _ _

theorem depth_enter_le (function : Function) (args : List Value) :
    (machine.enter limits function args).2.depth ≤ machine.depth + 1 := by
  simp only [enter]
  split
  · exact Nat.le_succ _
  · exact Nat.le_refl _

theorem depth_leave_le (value : Value) : (machine.leave value).2.depth ≤ machine.depth := by
  simp only [leave]
  split
  · exact Nat.le_refl _
  · rename_i frame callers running
    have fewer : callers.length ≤ machine.depth := by simp [depth, running]
    split
    · exact fewer
    · split
      · rw [depth_assign]
        exact fewer
      · exact fewer
      · exact fewer

end Operations

variable {machine : Machine} {env : Environment} {limit : Nat}

/-! ## Steps and runs -/

/-- Only a call adds a frame, and it was refused if the limit had been reached. -/
theorem depth_perform_le {frame : Frame} {instruction : Instruction} {action : Action}
    (bounded : env.limits.maxCallDepth = some limit)
    (planned : Planned env machine frame instruction action) :
    (machine.perform env.limits frame action).2.depth ≤ max limit machine.depth := by
  have kept {depth : Nat} (fewer : depth ≤ machine.depth) : depth ≤ max limit machine.depth :=
    Nat.le_trans fewer (Nat.le_max_right _ _)
  cases planned with
  | assign target callee => exact kept (Nat.le_of_eq (depth_assign _ _ _ _))
  | allocate => exact kept (Nat.le_of_eq (depth_allocate _ _ _ _))
  | store addressed read => exact kept (Nat.le_of_eq (depth_goTo _ _))
  | jump => exact kept (Nat.le_of_eq (depth_goTo _ _))
  | branch choice => exact kept (Nat.le_of_eq (depth_goTo _ _))
  | enter found arity shallow read =>
      have fewer : machine.depth < limit := Limits.checkDepth_eq_ok bounded shallow
      refine Nat.le_trans (depth_enter_le machine env.limits _ _) ?_
      exact Nat.le_trans fewer (Nat.le_max_left _ _)
  | leave read => exact kept (depth_leave_le _ _)
  | accept => exact kept (Nat.le_of_eq (depth_assign _ _ _ _))

theorem depth_step_le (machine : Machine) (bounded : env.limits.maxCallDepth = some limit) :
    (machine.step env).2.depth ≤ max limit machine.depth := by
  have view := stepped env machine
  generalize machine.step env = outcome at view ⊢
  cases view with
  | limit exceeded => exact Nat.le_max_right _ _
  | idle empty => exact Nat.le_max_right _ _
  | offCode running off => exact Nat.le_max_right _ _
  | refused running current refusal => exact Nat.le_max_right _ _
  | performed running current planned => exact depth_perform_le bounded planned

theorem depth_run_le (machine : Machine) (bounded : env.limits.maxCallDepth = some limit)
    (fuel : Nat) :
    (machine.run env fuel).2.depth ≤ max limit machine.depth := by
  induction fuel generalizing machine with
  | zero => exact Nat.le_max_right _ _
  | succ fuel ih =>
      have first := depth_step_le machine bounded
      simp only [run]
      split
      · rename_i next taken
        have rest := ih next
        rw [taken] at first
        dsimp only at first
        omega
      · exact first

theorem depth_start_le (limits : Limits) (machine : Machine) (function : Function)
    (args : List Value) : (machine.start limits function args).2.depth ≤ 1 := by
  simp only [start]
  split
  · exact depth_enter_le machine.reset limits function args
  · exact Nat.zero_le _

/-- A step is refused for its depth at the limit only. -/
theorem limit_le_depth_of_step {next : Machine}
    (stopped : machine.step env = (.faulted (.callDepthExceeded limit), next)) :
    env.limits.maxCallDepth = some limit ∧ limit ≤ machine.depth ∧ 0 < machine.depth := by
  cases stepFault_of_step stopped with
  | refused running current refusal =>
      cases refusal with
      | depth bounded deep => exact ⟨bounded, deep, by simp [depth, running]⟩

/-! ## Machines that calls bring about -/

/-- The machines that a new one can be turned into by calls in any order under the same limits,
with any functions, arguments, callbacks and globals, whatever the calls before them ended in. -/
inductive ReachableUnder (limits : Limits) : Machine → Prop
  | idle : ReachableUnder limits .idle
  | start {machine : Machine} (function : Function) (args : List Value)
      (reached : ReachableUnder limits machine) :
      ReachableUnder limits (machine.start limits function args).2
  | step {machine : Machine} (host : Option Registry) (globals : Option Globals)
      (reached : ReachableUnder limits machine) :
      ReachableUnder limits (machine.step ⟨limits, host, globals⟩).2
  | interpret {machine : Machine} (host : Option Registry) (globals : Option Globals)
      (fuel : Nat) (function : Function) (args : List Value)
      (reached : ReachableUnder limits machine) :
      ReachableUnder limits (machine.interpret ⟨limits, host, globals⟩ fuel function args).2
  | reset {machine : Machine} (reached : ReachableUnder limits machine) :
      ReachableUnder limits machine.reset

theorem ReachableUnder.depth_le {limits : Limits} (bounded : limits.maxCallDepth = some limit)
    (reached : ReachableUnder limits machine) : machine.depth ≤ max limit 1 := by
  induction reached with
  | idle => exact Nat.zero_le _
  | @start machine function args reached ih =>
      have started := depth_start_le limits machine function args
      omega
  | @step machine host globals reached ih =>
      have taken : (machine.step ⟨limits, host, globals⟩).2.depth ≤ max limit machine.depth :=
        depth_step_le machine bounded
      omega
  | @interpret machine host globals fuel function args reached ih =>
      have started := depth_start_le limits machine function args
      simp only [Machine.interpret]
      split
      · rename_i next entered
        have ran : (next.run ⟨limits, host, globals⟩ fuel).2.depth ≤ max limit next.depth :=
          depth_run_le next bounded fuel
        rw [entered] at started
        dsimp only at started
        omega
      · omega
  | reset reached ih => exact Nat.zero_le _

/-- Under a limit on the call depth, whatever the calls before ended in, a machine has more frames
than the limit exactly if the limit is zero and the outermost function is all that runs. Every start
that succeeds under a limit of zero leads there. A call is refused for its depth only when there are
as many frames as the limit grants. -/
theorem depth_exceeds_limit_iff {limits : Limits} (bounded : limits.maxCallDepth = some limit)
    (reached : ReachableUnder limits machine) :
    (limit < machine.depth ↔ limit = 0 ∧ machine.depth = 1) ∧
    (∀ function args next, machine.start limits function args = (.running, next) →
      next.depth = 1) ∧
    ∀ host globals refused,
      (machine.step ⟨limits, host, globals⟩).1 = .faulted (.callDepthExceeded refused) →
      refused = limit ∧ machine.depth = max limit 1 := by
  have most := reached.depth_le bounded
  refine ⟨by omega, ?_, ?_⟩
  · intro function args next started
    obtain ⟨-, -, rfl⟩ := start_eq_running started
    rfl
  · intro host globals refused stopped
    obtain ⟨same, deep, busy⟩ := limit_le_depth_of_step (Prod.ext stopped rfl)
    rw [bounded] at same
    cases same
    exact ⟨rfl, by omega⟩

theorem depth_exceeds_limit_iff_poking :
    ReachableUnder ⟨some 1, none, none⟩ (pokingAfter 1) ∧
      ((pokingAfter 1).step ⟨⟨some 1, none, none⟩, none, none⟩).1 =
        .faulted (.callDepthExceeded 1) ∧
      (pokingAfter 1).depth = 1 ∧ ¬ 1 < (pokingAfter 1).depth := by
  have reached : ReachableUnder ⟨some 1, none, none⟩ (pokingAfter 1) :=
    .interpret none none 1 poking [] .idle
  have stopped : ((pokingAfter 1).step ⟨⟨some 1, none, none⟩, none, none⟩).1 =
      .faulted (.callDepthExceeded 1) := by decide
  obtain ⟨exceeds, -, refused⟩ := depth_exceeds_limit_iff rfl reached
  obtain ⟨-, depth⟩ := refused none none 1 stopped
  exact ⟨reached, stopped, depth, by simp [exceeds]⟩

/-- The outermost function is entered under a limit that grants no frame. -/
theorem start_exceeds_depth_limit :
    ¬ ∀ (limits : Limits) (limit : Nat), limits.maxCallDepth = some limit →
      ∀ (machine : Machine) (function : Function) (args : List Value) (next : Machine),
        machine.start limits function args = (.running, next) → next.depth ≤ limit := by
  intro bound
  exact absurd (bound ⟨some 0, none, none⟩ 0 rfl .idle poking [] _ rfl) (by decide)

end Machine
end RegisterMachine
