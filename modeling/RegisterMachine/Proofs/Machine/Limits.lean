import RegisterMachine.Proofs.Machine.Surroundings

/-!
Limits only ever cut a run short.

A run that its limits do not stop is the same run under any higher limits and under none. A limit on
the number of steps alone stops exactly the runs that would otherwise go on after it.
-/
set_option autoImplicit false

namespace RegisterMachine

/-- The faults of runs that use more than their limits grant. -/
def Fault.isLimit : Fault → Bool
  | .stepLimitExceeded _ | .stackLimitExceeded _ | .callDepthExceeded _ => true
  | _ => false

namespace Limits

/-- The first bound is at most the second. To have no bound is to have the highest. -/
def AtMost (low high : Option Nat) : Prop :=
  ∀ limit ∈ high, ∃ lower ∈ low, lower ≤ limit

/-- No limit is higher than its counterpart. -/
structure Within (limits wider : Limits) : Prop where
  maxCallDepth : AtMost limits.maxCallDepth wider.maxCallDepth
  maxStackSize : AtMost limits.maxStackSize wider.maxStackSize
  maxSteps : AtMost limits.maxSteps wider.maxSteps

/-- A test against an optional bound: the shape that all tests of limits have. -/
def test (bound : Option Nat) (cause : Nat → Fault) (fits : Nat → Prop) [DecidablePred fits] :
    Except Fault Unit :=
  match bound with
  | some limit => if fits limit then .ok () else .error (cause limit)
  | none => .ok ()

theorem AtMost.test {low high : Option Nat} (order : AtMost low high) {cause : Nat → Fault}
    (isLimit : ∀ limit, (cause limit).isLimit = true) {fits : Nat → Prop} [DecidablePred fits]
    (upward : ∀ lower limit, lower ≤ limit → fits lower → fits limit) :
    AgreesUnless (fun fault => fault.isLimit = true) (test low cause fits)
      (test high cause fits) := by
  cases low with
  | none =>
      cases high with
      | none => exact .refl _
      | some limit =>
          obtain ⟨lower, absent, -⟩ := order limit rfl
          cases absent
  | some lower =>
      by_cases passes : fits lower
      · have low : Limits.test (some lower) cause fits = .ok () := if_pos passes
        rw [low]
        cases high with
        | none => exact .refl _
        | some limit =>
            obtain ⟨_, ⟨⟩, below⟩ := order limit rfl
            exact .inl (if_pos (upward lower limit below passes))
      · exact .inr ⟨cause lower, if_neg passes, isLimit lower⟩

namespace Within

variable {limits wider : Limits}

theorem widened {env : Environment} (within : env.limits.Within wider) :
    env.Widened (fun fault => fault.isLimit = true) { env with limits := wider } := by
  apply Environment.Widened.of_limits
  · intro frames
    apply within.maxCallDepth.test (fun limit => rfl)
    intro lower limit below passes
    exact Nat.lt_of_lt_of_le passes below
  · intro stack
    apply within.maxStackSize.test (fun limit => rfl)
    intro lower limit below passes
    exact Nat.le_trans passes below

theorem checkSteps (within : limits.Within wider) (count : Nat) :
    AgreesUnless (fun fault => fault.isLimit = true) (limits.checkSteps count)
      (wider.checkSteps count) := by
  apply within.maxSteps.test (fun limit => rfl)
  intro lower limit below passes
  exact Nat.le_trans passes below

end Within

/-- No limit but one on the number of steps. -/
def steps (count : Nat) : Limits :=
  ⟨none, none, some count⟩

theorem checkSteps_steps_of_le {count bound : Nat} (fits : count ≤ bound) :
    (steps bound).checkSteps count = .ok () :=
  if_pos fits

theorem checkSteps_steps_of_lt {count bound : Nat} (exceeds : bound < count) :
    (steps bound).checkSteps count = .error (.stepLimitExceeded bound) :=
  if_neg (Nat.not_le.mpr exceeds)

end Limits

namespace Machine

theorem widened_steps (env : Environment) (bound : Nat) :
    Environment.Widened (fun _ => False) { env with limits := .unlimited }
      { env with limits := .steps bound } :=
  .of_limits (fun _ => .refl _) (fun _ => .refl _)

theorem step_of_steps_spent (env : Environment) {machine : Machine} {bound : Nat}
    (spent : machine.steps = bound) :
    machine.step { env with limits := .steps bound } =
      (.faulted (.stepLimitExceeded bound), machine.counted) := by
  have exceeded : (Limits.steps bound).checkSteps machine.counted.steps =
      .error (.stepLimitExceeded bound) :=
    Limits.checkSteps_steps_of_lt (by simp [counted, spent])
  rw [step_eq_counted]
  dsimp only
  rw [exceeded]

theorem steps_of_interpret {env : Environment} {count : Nat} {before machine : Machine}
    {function : Function} {args : List Value}
    (ran : before.interpret env count function args = (.running, machine)) :
    machine.steps = count := by
  obtain ⟨started, entered, ran⟩ := interpret_eq_running.mp ran
  obtain ⟨-, -, rfl⟩ := start_eq_running entered
  simpa using steps_of_run ran

/-- Up to its last step, a run under a limit on steps is the run without limits. -/
theorem follows_interpret_steps (env : Environment) (bound : Nat) (before before' : Machine)
    (function : Function) (args : List Value) :
    Follows (fun _ => False) before'.output before.output
      (before'.interpret { env with limits := .unlimited } bound function args)
      (before.interpret { env with limits := .steps bound } bound function args) := by
  apply follows_interpret (widened_steps env bound)
  intro count fits
  exact .inl (Limits.checkSteps_steps_of_le fits)

/-- A run that ends in no limit's fault is the same under higher limits, whatever the machines did
before: after every number of steps it has the same status, stack, frames and count of steps, and
has printed the same lines. Under a limit on steps alone, every run ends with the step after the
limit at the latest: as it does without limits, if it ends there within the limit, and otherwise in
that limit's fault. -/
theorem limits_only_cut_short (env : Environment) (before before' : Machine) (function : Function)
    (args : List Value) :
    (∀ wider : Limits, env.limits.Within wider → ∀ fuel,
      (∀ fault, (before.interpret env fuel function args).1 = .faulted fault →
        fault.isLimit = false) →
      (before'.interpret { env with limits := wider } fuel function args).1 =
        (before.interpret env fuel function args).1 ∧
      Twin before.output before'.output (before.interpret env fuel function args).2
        (before'.interpret { env with limits := wider } fuel function args).2) ∧
    ∀ bound fuel : Nat, bound < fuel →
      (before.interpret { env with limits := .steps bound } fuel function args).1 ≠ .running ∧
      ((before'.interpret { env with limits := .unlimited } bound function args).1 ≠ .running →
        (before.interpret { env with limits := .steps bound } fuel function args).1 =
          (before'.interpret { env with limits := .unlimited } bound function args).1) ∧
      ((before'.interpret { env with limits := .unlimited } bound function args).1 = .running →
        (before.interpret { env with limits := .steps bound } fuel function args).1 =
          .faulted (.stepLimitExceeded bound)) := by
  constructor
  · intro wider within fuel clear
    have follows : Follows (fun fault => fault.isLimit = true) before.output before'.output
        (before.interpret env fuel function args)
        (before'.interpret { env with limits := wider } fuel function args) :=
      follows_interpret within.widened (fun count _ => within.checkSteps count) before before'
        function args
    generalize before.interpret env fuel function args = outcome at follows clear ⊢
    generalize before'.interpret { env with limits := wider } fuel function args = outcome'
      at follows ⊢
    cases follows with
    | lacking lacked =>
        have passes := clear _ rfl
        rw [lacked] at passes
        cases passes
    | alike twins => exact ⟨rfl, twins⟩
  · intro bound fuel exceeds
    obtain ⟨rest, rfl⟩ := Nat.exists_eq_add_of_lt exceeds
    have follows := follows_interpret_steps env bound before before' function args
    rw [Nat.add_assoc, interpret_add]
    cases ran : before.interpret { env with limits := .steps bound } bound function args with
    | mk status machine =>
        rw [ran] at follows
        generalize before'.interpret { env with limits := .unlimited } bound function args = free
          at follows ⊢
        cases follows with
        | lacking lacked => cases lacked
        | alike twins =>
            cases status with
            | running =>
                -- All steps are spent, and the next one is refused.
                have refused := step_of_steps_spent env (steps_of_interpret ran)
                simp [run, refused]
            | returned value => simp
            | faulted fault => simp

theorem limits_only_cut_short_poking :
    Limits.Within ⟨some 2, some 10, some 7⟩ .unlimited ∧
      (Machine.idle.interpret ⟨.unlimited, none, none⟩ 7 poking []).1 = .returned (.int32 9) ∧
      (Machine.idle.interpret ⟨.steps 7, none, none⟩ 9 poking []).1 = .returned (.int32 9) ∧
      (Machine.idle.interpret ⟨.steps 6, none, none⟩ 9 poking []).1 =
        .faulted (.stepLimitExceeded 6) := by
  have within : Limits.Within ⟨some 2, some 10, some 7⟩ .unlimited :=
    ⟨by simp [Limits.AtMost, Limits.unlimited], by simp [Limits.AtMost, Limits.unlimited],
      by simp [Limits.AtMost, Limits.unlimited]⟩
  have ended : (Machine.idle.interpret ⟨⟨some 2, some 10, some 7⟩, none, none⟩ 7 poking []).1 =
      .returned (.int32 9) := by decide
  obtain ⟨raised, -⟩ :=
    limits_only_cut_short ⟨⟨some 2, some 10, some 7⟩, none, none⟩ .idle .idle poking []
  obtain ⟨-, spent⟩ := limits_only_cut_short ⟨.unlimited, none, none⟩ .idle .idle poking []
  have free : (Machine.idle.interpret ⟨.unlimited, none, none⟩ 7 poking []).1 =
      .returned (.int32 9) := by
    refine (raised .unlimited within 7 ?_).1.trans ended
    intro fault stopped
    rw [ended] at stopped
    cases stopped
  refine ⟨within, free, ?_, ?_⟩
  · exact ((spent 7 9 (by decide)).2.1 (by simp [free])).trans free
  · exact (spent 6 9 (by decide)).2.2 (by decide)

end Machine
end RegisterMachine
