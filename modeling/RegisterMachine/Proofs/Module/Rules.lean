import RegisterMachine.Proofs.Machine.Plan
import RegisterMachine.Proofs.Module.CallGraph

/-!
The rules that code has to keep, and what the checks find out about them.

`Violation` says of one instruction which rules it breaks, given the instructions before it. A check
of a function reports the first violation in the order of the code, and of several at one
instruction the one that takes precedence. It passes exactly the functions without violations, which
are the lawful ones. The check of a whole call graph passes exactly if all its functions are lawful.
-/
set_option autoImplicit false

namespace RegisterMachine

/-- The slot that the instruction at `pc` assigns. -/
def Definition.destAt? (definition : Definition) (pc : Nat) : Option Slot :=
  definition.code[pc]?.bind Instruction.dest?

theorem Definition.destAt?_of_code {definition : Definition} {pc : Nat} {instruction : Instruction}
    (here : definition.code[pc]? = some instruction) :
    definition.destAt? pc = instruction.dest? := by
  simp [destAt?, here]

theorem Instruction.exists_call_of_callee? {instruction : Instruction} {callee : FuncId}
    (calls : instruction.callee? = some callee) :
    ∃ dest args, instruction = .call dest callee args := by
  cases instruction with
  | call dest id args =>
      cases calls
      exact ⟨dest, args, rfl⟩
  | _ => cases calls

namespace VerifyError

/-- The instruction that an error is reported for. -/
def pc? : VerifyError → Option Nat
  | .argumentAssigned pc _ _ => some pc
  | .reassigned _ _ second => some second
  | .unknownCallee pc _ => some pc
  | .callArity pc _ _ _ => some pc
  | .undefined _ | .unknownFunction _ => none

/-- Of several errors at one instruction, the one with the least rank is reported. -/
def rank : VerifyError → Nat
  | .unknownCallee _ _ => 0
  | .callArity _ _ _ _ => 1
  | .argumentAssigned _ _ _ => 2
  | .reassigned _ _ _ => 3
  | .undefined _ | .unknownFunction _ => 4

end VerifyError

namespace Module

variable {module : Module} {definition : Definition} {id : FuncId} {pc : Nat}
  {instruction : Instruction} {error : VerifyError}

/-- The instruction at `pc` breaks a rule, given the instructions before it. -/
inductive Violation (module : Module) (definition : Definition) (pc : Nat) : VerifyError → Prop
  | unknownCallee {dest : Slot} {callee : FuncId} {args : List Slot}
      (here : definition.code[pc]? = some (.call dest callee args))
      (missing : module.get? callee = none) :
      Violation module definition pc (.unknownCallee pc callee)
  | callArity {dest : Slot} {callee : FuncId} {args : List Slot} {target : Definition}
      (here : definition.code[pc]? = some (.call dest callee args))
      (present : module.get? callee = some target)
      (differs : args.length ≠ target.argCount.toNat) :
      Violation module definition pc (.callArity pc callee target.argCount args.length)
  | argumentAssigned {slot : Slot} (assigned : definition.destAt? pc = some slot)
      (argument : slot < definition.argCount) :
      Violation module definition pc (.argumentAssigned pc slot definition.argCount)
  | reassigned {slot : Slot} {first : Nat} (assigned : definition.destAt? pc = some slot)
      (before : first < pc) (earlier : definition.destAt? first = some slot) :
      Violation module definition pc (.reassigned slot first pc)

theorem Violation.pc?_eq (violation : module.Violation definition pc error) :
    error.pc? = some pc := by
  cases violation <;> rfl

theorem Violation.exists_code (violation : module.Violation definition pc error) :
    ∃ instruction, definition.code[pc]? = some instruction := by
  cases violation with
  | unknownCallee here missing => exact ⟨_, here⟩
  | callArity here present differs => exact ⟨_, here⟩
  | argumentAssigned assigned argument =>
      obtain ⟨instruction, here, -⟩ := Option.bind_eq_some_iff.mp assigned
      exact ⟨instruction, here⟩
  | reassigned assigned before earlier =>
      obtain ⟨instruction, here, -⟩ := Option.bind_eq_some_iff.mp assigned
      exact ⟨instruction, here⟩

/-- The first violation in a function, at `pc`: all instructions before it keep the rules, and no
violation at `pc` takes precedence. -/
structure FirstViolation (module : Module) (definition : Definition) (pc : Nat)
    (error : VerifyError) : Prop where
  violation : module.Violation definition pc error
  least : ∀ earlier < pc, ∀ other, ¬ module.Violation definition earlier other
  foremost : ∀ other, module.Violation definition pc other → error.rank ≤ other.rank

/-! ## One instruction -/

theorem violation_of_checkCall (here : definition.code[pc]? = some instruction)
    (failed : module.checkCall pc instruction = .error error) :
    module.Violation definition pc error ∧
      ∀ other, module.Violation definition pc other → error.rank ≤ other.rank := by
  unfold checkCall at failed
  split at failed
  · split at failed
    · cases failed
      exact ⟨.unknownCallee here ‹_›, fun other _ => Nat.zero_le _⟩
    · rename_i target present
      split at failed
      · cases failed
      · cases failed
        refine ⟨.callArity here present ‹_›, ?_⟩
        intro other violation
        cases violation with
        | unknownCallee there missing =>
            rw [here] at there
            cases there
            rw [present] at missing
            cases missing
        | _ => simp [VerifyError.rank]
  · cases failed

theorem two_le_rank_of_checkCall (here : definition.code[pc]? = some instruction)
    (passed : module.checkCall pc instruction = .ok ())
    (violation : module.Violation definition pc error) : 2 ≤ error.rank := by
  cases violation with
  | unknownCallee there missing =>
      rw [here] at there
      cases there
      simp [checkCall, missing] at passed
  | callArity there present differs =>
      rw [here] at there
      cases there
      simp [checkCall, present, differs] at passed
  | argumentAssigned assigned argument => simp [VerifyError.rank]
  | reassigned assigned before earlier => simp [VerifyError.rank]

/-! ## Assignments -/

/-- Just the slots assigned before `pc` are entered, each with the instruction that assigns it. -/
def Tracks (definition : Definition) (pc : Nat) (assigned : Assignments) : Prop :=
  ∀ slot first, assigned.lookup slot = some first ↔
    first < pc ∧ definition.destAt? first = some slot

theorem tracks_start (definition : Definition) : Tracks definition 0 [] := by
  intro slot first
  simp

theorem assigned_before_succ_iff {slot : Slot} {first : Nat}
    (other : definition.destAt? pc ≠ some slot) :
    first < pc + 1 ∧ definition.destAt? first = some slot ↔
      first < pc ∧ definition.destAt? first = some slot := by
  constructor
  · rintro ⟨before, assigns⟩
    rcases Nat.lt_succ_iff_lt_or_eq.mp before with before | rfl
    · exact ⟨before, assigns⟩
    · exact absurd assigns other
  · rintro ⟨before, assigns⟩
    exact ⟨Nat.lt_succ_of_lt before, assigns⟩

namespace Tracks

variable {assigned next : Assignments} {slot : Slot}

theorem pass (tracked : Tracks definition pc assigned) (none : definition.destAt? pc = none) :
    Tracks definition (pc + 1) assigned := by
  intro slot first
  rw [tracked slot first, assigned_before_succ_iff]
  simp [none]

theorem enter (tracked : Tracks definition pc assigned) (here : definition.destAt? pc = some slot)
    (new : assigned.lookup slot = none) :
    Tracks definition (pc + 1) ((slot, pc) :: assigned) := by
  intro other first
  by_cases same : other = slot
  · subst same
    rw [List.lookup_cons_self]
    constructor
    · rintro ⟨⟩
      exact ⟨Nat.lt_succ_self pc, here⟩
    · rintro ⟨before, assigns⟩
      rcases Nat.lt_succ_iff_lt_or_eq.mp before with before | rfl
      · cases new.symm.trans ((tracked _ _).mpr ⟨before, assigns⟩)
      · rfl
  · have skipped : List.lookup other ((slot, pc) :: assigned) = assigned.lookup other := by
      rw [List.lookup_cons, beq_eq_false_iff_ne.mpr same]
    rw [skipped, tracked other first, assigned_before_succ_iff]
    intro assigns
    exact same (Option.some.inj (assigns.symm.trans here))

/-- An instruction that keeps the rules leaves the entries complete. -/
theorem checkDest (tracked : Tracks definition pc assigned)
    (here : definition.code[pc]? = some instruction)
    (passed : checkDest definition.argCount assigned pc instruction = .ok next) :
    Tracks definition (pc + 1) next := by
  have assigns := Definition.destAt?_of_code here
  unfold Module.checkDest at passed
  split at passed
  · rename_i none
    cases passed
    exact tracked.pass (assigns.trans none)
  · rename_i slot dest
    split at passed
    · cases passed
    · split at passed
      · cases passed
      · rename_i new
        cases passed
        exact tracked.enter (assigns.trans dest) new

theorem violation_of_checkDest (tracked : Tracks definition pc assigned)
    (here : definition.code[pc]? = some instruction)
    (failed : Module.checkDest definition.argCount assigned pc instruction = .error error) :
    module.Violation definition pc error ∧
      ∀ other, module.Violation definition pc other → 2 ≤ other.rank →
        error.rank ≤ other.rank := by
  have assigns := Definition.destAt?_of_code here
  unfold Module.checkDest at failed
  split at failed
  · cases failed
  · rename_i slot dest
    rw [dest] at assigns
    split at failed
    · rename_i argument
      cases failed
      exact ⟨.argumentAssigned assigns argument, fun other _ late => late⟩
    · rename_i free
      split at failed
      · rename_i first entered
        obtain ⟨before, earlier⟩ := (tracked _ _).mp entered
        cases failed
        refine ⟨.reassigned assigns before earlier, ?_⟩
        intro other violation late
        cases violation with
        | unknownCallee | callArity => simp [VerifyError.rank] at late
        | argumentAssigned assigned argument =>
            rw [assigns] at assigned
            cases assigned
            exact absurd argument free
        | reassigned => simp [VerifyError.rank]
      · cases failed

theorem rank_lt_two_of_checkDest (tracked : Tracks definition pc assigned)
    (here : definition.code[pc]? = some instruction)
    (passed : Module.checkDest definition.argCount assigned pc instruction = .ok next)
    (violation : module.Violation definition pc error) : error.rank < 2 := by
  have assigns := Definition.destAt?_of_code here
  cases violation with
  | unknownCallee there missing => simp [VerifyError.rank]
  | callArity there present differs => simp [VerifyError.rank]
  | argumentAssigned assigned argument =>
      simp [Module.checkDest, assigns.symm.trans assigned, argument] at passed
  | @reassigned slot first assigned before earlier =>
      have entered := (tracked slot first).mpr ⟨before, earlier⟩
      simp only [Module.checkDest, assigns.symm.trans assigned, entered] at passed
      split at passed <;> cases passed

end Tracks

/-! ## One function -/

/-- What a check of all instructions finds out. -/
inductive CodeOutcome (module : Module) (definition : Definition) :
    Except VerifyError Unit → Prop where
  | kept : (∀ pc error, ¬ module.Violation definition pc error) →
      CodeOutcome module definition (.ok ())
  | broken {pc : Nat} {error : VerifyError} : module.FirstViolation definition pc error →
      CodeOutcome module definition (.error error)

theorem codeOutcome {assigned : Assignments} {code : List Instruction}
    (tracked : Tracks definition pc assigned) (rest : definition.code.drop pc = code)
    (kept : ∀ earlier < pc, ∀ error, ¬ module.Violation definition earlier error) :
    module.CodeOutcome definition (module.checkCode definition.argCount assigned pc code) := by
  induction code generalizing pc assigned with
  | nil =>
      refine .kept fun later error violation => ?_
      obtain ⟨instruction, here⟩ := violation.exists_code
      have inside : later < definition.code.length := (List.getElem?_eq_some_iff.mp here).1
      exact kept later (Nat.lt_of_lt_of_le inside (List.drop_eq_nil_iff.mp rest)) error violation
  | cons instruction code ih =>
      have here : definition.code[pc]? = some instruction := by
        rw [← List.head?_drop, rest]
        rfl
      have behind : definition.code.drop (pc + 1) = code := by
        rw [← List.tail_drop, rest]
        rfl
      cases call : module.checkCall pc instruction with
      | error error =>
          obtain ⟨violation, foremost⟩ := violation_of_checkCall here call
          simp only [checkCode, checkInstruction, call, bind, Except.bind]
          exact .broken ⟨violation, kept, foremost⟩
      | ok done =>
          cases dest : Module.checkDest definition.argCount assigned pc instruction with
          | error error =>
              obtain ⟨violation, foremost⟩ := tracked.violation_of_checkDest here dest
              simp only [checkCode, checkInstruction, call, dest, bind, Except.bind]
              refine .broken ⟨violation, kept, ?_⟩
              intro other broken
              exact foremost other broken (two_le_rank_of_checkCall here call broken)
          | ok next =>
              simp only [checkCode, checkInstruction, call, dest, bind, Except.bind]
              refine ih (tracked.checkDest here dest) behind ?_
              intro earlier before error violation
              rcases Nat.lt_succ_iff_lt_or_eq.mp before with before | rfl
              · exact kept earlier before error violation
              · have late := two_le_rank_of_checkCall here call violation
                have early := tracked.rank_lt_two_of_checkDest here dest violation
                omega

theorem codeOutcome_start (module : Module) (definition : Definition) :
    module.CodeOutcome definition
      (module.checkCode definition.argCount [] 0 definition.code) :=
  codeOutcome (tracks_start definition) rfl fun _ before => absurd before (Nat.not_lt_zero _)

theorem not_violation_of_checkCode
    (passed : module.checkCode definition.argCount [] 0 definition.code = .ok ()) (pc : Nat)
    (error : VerifyError) : ¬ module.Violation definition pc error := by
  have outcome := module.codeOutcome_start definition
  rw [passed] at outcome
  cases outcome with
  | kept kept => exact kept pc error

theorem firstViolation_of_checkCode
    (failed : module.checkCode definition.argCount [] 0 definition.code = .error error) :
    ∃ pc, module.FirstViolation definition pc error := by
  have outcome := module.codeOutcome_start definition
  rw [failed] at outcome
  cases outcome with
  | broken found => exact ⟨_, found⟩

namespace FirstViolation

/-- Before the first violation no slot is assigned twice. -/
theorem assigned_once (found : module.FirstViolation definition pc error) {slot : Slot}
    {a b : Nat} (left : a < pc) (right : b < pc) (here : definition.destAt? a = some slot)
    (there : definition.destAt? b = some slot) : a = b := by
  rcases Nat.lt_trichotomy a b with before | same | after
  · exact absurd (.reassigned there before here) (found.least b right _)
  · exact same
  · exact absurd (.reassigned here after there) (found.least a left _)

theorem unique {other : Nat} {cause : VerifyError}
    (found : module.FirstViolation definition pc error)
    (again : module.FirstViolation definition other cause) : error = cause := by
  have place : pc = other := by
    rcases Nat.lt_trichotomy pc other with before | same | after
    · exact absurd found.violation (again.least pc before _)
    · exact same
    · exact absurd again.violation (found.least other after _)
  subst place
  have rank : error.rank = cause.rank :=
    Nat.le_antisymm (found.foremost _ again.violation) (again.foremost _ found.violation)
  cases found.violation with
  | unknownCallee here missing =>
      cases again.violation with
      | unknownCallee there absent =>
          rw [here] at there
          cases there
          rfl
      | _ => cases rank
  | callArity here present differs =>
      cases again.violation with
      | callArity there known unequal =>
          rw [here] at there
          cases there
          rw [present] at known
          cases known
          rfl
      | _ => cases rank
  | argumentAssigned assigned argument =>
      cases again.violation with
      | argumentAssigned same parameter =>
          rw [assigned] at same
          cases same
          rfl
      | _ => cases rank
  | reassigned assigned before earlier =>
      cases again.violation with
      | reassigned same ahead previous =>
          rw [assigned] at same
          cases same
          rw [found.assigned_once before ahead earlier previous]
      | _ => cases rank

end FirstViolation

theorem check_of_isDefined (present : module.get? id = some definition)
    (defined : definition.isDefined = true) :
    module.check id = module.checkCode definition.argCount [] 0 definition.code := by
  simp [check, present, defined]

/-- A check fails with the first violation: at the least instruction that breaks a rule given those
before it, and of several violations there with the one that takes precedence. All data of the error
are those of the instruction, and a slot that is assigned again was assigned at exactly one
instruction before. -/
theorem check_reports_first_violation (present : module.get? id = some definition)
    (defined : definition.isDefined = true) :
    (∀ error, module.check id = .error error ↔
      ∃ pc, error.pc? = some pc ∧ module.FirstViolation definition pc error) ∧
    ∀ slot first second, module.check id = .error (.reassigned slot first second) →
      first < second ∧ definition.destAt? first = some slot ∧
      definition.destAt? second = some slot ∧
      ∀ other < second, definition.destAt? other = some slot → other = first := by
  rw [check_of_isDefined present defined]
  constructor
  · intro error
    constructor
    · intro failed
      obtain ⟨pc, found⟩ := firstViolation_of_checkCode failed
      exact ⟨pc, found.violation.pc?_eq, found⟩
    · rintro ⟨pc, -, found⟩
      cases outcome : module.checkCode definition.argCount [] 0 definition.code with
      | ok value => exact absurd found.violation (not_violation_of_checkCode outcome pc error)
      | error cause =>
          obtain ⟨other, again⟩ := firstViolation_of_checkCode outcome
          rw [found.unique again]
  · intro slot first second failed
    obtain ⟨pc, found⟩ := firstViolation_of_checkCode failed
    cases found.violation with
    | reassigned assigned before earlier =>
        refine ⟨before, earlier, assigned, ?_⟩
        intro other inside here
        exact found.assigned_once inside before here earlier

/-- Functions that break rules: one calls a function that is not there for a slot that it has
assigned, the other assigns a slot twice. -/
def clashing : Module :=
  ⟨[⟨some "adrift", 1, 1, some [.constantInt32 1 5, .call 1 ⟨7⟩ [], .constantInt32 0 5]⟩,
    ⟨some "twice", 1, 1, some [.constant 1 .null, .jump 2, .load .any 1 0]⟩]⟩

theorem check_reports_first_violation_clashing :
    clashing.check ⟨0⟩ = .error (.unknownCallee 1 ⟨7⟩) ∧
      (∀ definition, clashing.get? ⟨0⟩ = some definition →
        clashing.FirstViolation definition 1 (.unknownCallee 1 ⟨7⟩) ∧
        clashing.Violation definition 1 (.reassigned 1 0 1)) ∧
      clashing.check ⟨1⟩ = .error (.reassigned 1 0 2) ∧
      ∀ definition, clashing.get? ⟨1⟩ = some definition →
        ∀ other < 2, definition.destAt? other = some 1 → other = 0 := by
  refine ⟨rfl, ?_, rfl, ?_⟩
  · intro definition present
    have defined : definition.isDefined = true := by cases present; rfl
    obtain ⟨reports, -⟩ := check_reports_first_violation present defined
    obtain ⟨pc, same, found⟩ := (reports (.unknownCallee 1 ⟨7⟩)).mp rfl
    cases same
    cases present
    exact ⟨found, .reassigned rfl (by decide) rfl⟩
  · intro definition present
    have defined : definition.isDefined = true := by cases present; rfl
    obtain ⟨-, once⟩ := check_reports_first_violation present defined
    exact (once 1 0 2 rfl).2.2.2

/-- A function that keeps all rules. -/
structure Lawful (module : Module) (definition : Definition) : Prop where
  defined : definition.isDefined = true
  /-- Every destination is a local. -/
  locals : ∀ instruction ∈ definition.code, ∀ slot ∈ instruction.dest?, definition.argCount ≤ slot
  /-- No slot is assigned at two instructions. -/
  single : ∀ first second slot, definition.destAt? first = some slot →
    definition.destAt? second = some slot → first = second
  /-- Every call names a function of the module and passes as many arguments as it takes. -/
  calls : ∀ dest callee args, .call dest callee args ∈ definition.code →
    ∃ target, module.get? callee = some target ∧ args.length = target.argCount.toNat

theorem Lawful.not_violation (lawful : module.Lawful definition) :
    ¬ module.Violation definition pc error := by
  intro violation
  cases violation with
  | unknownCallee here missing =>
      obtain ⟨target, present, -⟩ := lawful.calls _ _ _ (List.mem_of_getElem? here)
      rw [missing] at present
      cases present
  | callArity here present differs =>
      obtain ⟨target, known, arity⟩ := lawful.calls _ _ _ (List.mem_of_getElem? here)
      rw [present] at known
      cases known
      exact differs arity
  | argumentAssigned assigned argument =>
      obtain ⟨instruction, here, dest⟩ := Option.bind_eq_some_iff.mp assigned
      have free := lawful.locals instruction (List.mem_of_getElem? here) _ dest
      exact absurd argument (UInt16.not_lt.mpr free)
  | reassigned assigned before earlier =>
      exact absurd (lawful.single _ _ _ earlier assigned) (Nat.ne_of_lt before)

theorem lawful_of_not_violation (defined : definition.isDefined = true)
    (kept : ∀ pc error, ¬ module.Violation definition pc error) : module.Lawful definition where
  defined := defined
  locals := by
    intro instruction member slot dest
    obtain ⟨pc, here⟩ := List.getElem?_of_mem member
    refine UInt16.not_lt.mp fun argument => kept pc _ (.argumentAssigned ?_ argument)
    rw [Definition.destAt?_of_code here]
    exact dest
  single := by
    intro first second slot here there
    rcases Nat.lt_trichotomy first second with before | same | after
    · exact absurd (.reassigned there before here) (kept second _)
    · exact same
    · exact absurd (.reassigned here after there) (kept first _)
  calls := by
    intro dest callee args member
    obtain ⟨pc, here⟩ := List.getElem?_of_mem member
    cases present : module.get? callee with
    | none => exact absurd (.unknownCallee here present) (kept pc _)
    | some target =>
        refine ⟨target, rfl, Decidable.not_not.mp fun differs => ?_⟩
        exact kept pc _ (.callArity here present differs)

/-- A check passes exactly the lawful functions. -/
theorem check_eq_ok_iff :
    module.check id = .ok () ↔
      ∃ definition, module.get? id = some definition ∧ module.Lawful definition := by
  constructor
  · intro passed
    obtain ⟨definition, present, defined, code⟩ := get?_of_check passed
    exact ⟨definition, present, lawful_of_not_violation defined (not_violation_of_checkCode code)⟩
  · rintro ⟨definition, present, lawful⟩
    rw [check_of_isDefined present lawful.defined]
    cases outcome : module.checkCode definition.argCount [] 0 definition.code with
    | ok value => rfl
    | error cause =>
        obtain ⟨pc, found⟩ := firstViolation_of_checkCode outcome
        exact absurd found.violation lawful.not_violation

theorem lawful_of_check (passed : module.check id = .ok ())
    (present : module.get? id = some definition) : module.Lawful definition := by
  obtain ⟨found, here, lawful⟩ := check_eq_ok_iff.mp passed
  rw [present] at here
  cases here
  exact lawful

/-! ## All functions that calls lead to -/

theorem Lawful.get?_of_calls {callee : FuncId} (lawful : module.Lawful definition)
    (present : module.get? id = some definition) (calls : module.Calls id callee) :
    ∃ target, module.get? callee = some target := by
  rw [Calls, calleesOf_of_get? present] at calls
  obtain ⟨instruction, member, called⟩ := List.mem_filterMap.mp calls
  obtain ⟨dest, args, rfl⟩ := instruction.exists_call_of_callee? called
  obtain ⟨target, there, -⟩ := lawful.calls dest callee args member
  exact ⟨target, there⟩

theorem get?_of_connected {entry : FuncId}
    (start : ∃ definition, module.get? entry = some definition)
    (lawful : ∀ id definition, module.Connected entry id → module.get? id = some definition →
      module.Lawful definition) (connected : module.Connected entry id) :
    ∃ definition, module.get? id = some definition := by
  induction connected with
  | refl => exact start
  | tail chain call ih =>
      obtain ⟨definition, present⟩ := ih
      exact (lawful _ definition chain present).get?_of_calls present call

theorem connected_of_mem_checks {entry : FuncId} (member : id ∈ module.checks entry) :
    module.Connected entry id := by
  refine connected_of_mem_checksFrom ?_ id member
  intro other queued
  rw [List.mem_singleton.mp queued]
  exact .refl

theorem mem_checks_of_connected {entry : FuncId} (passed : module.checkReachable entry = .ok ())
    (connected : module.Connected entry id) : id ∈ module.checks entry := by
  obtain ⟨closed, reached⟩ :=
    closed_checksFrom passed (by simp) (fun id member => absurd member (by simp))
  have visited := closed.mem_of_connected (reached entry (by simp)) connected
  simpa [checks] using visited

/-- The check of a whole call graph. It passes exactly if the entry exists and every function that
calls lead to is lawful. It looks at functions one after the other, each once, and when it passes,
the breadth-first search succeeds and lists just these functions. -/
theorem checkReachable_exact (module : Module) (entry : FuncId) :
    (module.checkReachable entry = .ok () ↔
      (∃ definition, module.get? entry = some definition) ∧
      ∀ id definition, module.Connected entry id → module.get? id = some definition →
        module.Lawful definition) ∧
    module.checkReachable entry = forM (module.checks entry) module.check ∧
    (module.checks entry).Nodup ∧
    (module.checkReachable entry = .ok () →
      ∃ order, module.reachable entry = .ok order ∧ order.Perm (module.checks entry)) := by
  have checks : module.checkReachable entry = forM (module.checks entry) module.check :=
    checkFrom_eq_forM module [] [entry]
  have once : (module.checks entry).Nodup := (nodup_checksFrom module [] [entry]).1
  refine ⟨⟨?_, ?_⟩, checks, once, ?_⟩
  · intro passed
    obtain ⟨definition, present, -⟩ := get?_of_check (check_of_connected passed .refl)
    refine ⟨⟨definition, present⟩, ?_⟩
    intro id definition connected there
    exact lawful_of_check (check_of_connected passed connected) there
  · rintro ⟨start, lawful⟩
    rw [checks, forM_eq_ok_iff]
    intro id member
    have connected := connected_of_mem_checks member
    obtain ⟨definition, present⟩ := get?_of_connected start lawful connected
    exact check_eq_ok_iff.mpr ⟨definition, present, lawful id definition connected present⟩
  · intro passed
    obtain ⟨order, found⟩ := exists_reachable_of_checkReachable passed
    obtain ⟨distinct, closed, member⟩ := reachable_eq_ok found
    refine ⟨order, found, (List.perm_ext_iff_of_nodup distinct once).mpr fun id => ?_⟩
    constructor
    · intro listed
      exact mem_checks_of_connected passed (connected_of_mem_reachable found listed)
    · intro visited
      exact closed.mem_of_connected member (connected_of_mem_checks visited)

/-- Two functions that call each other; the second one calls itself as well. -/
def pingPong : Module :=
  ⟨[⟨some "ping", 1, 1, some [.call 1 ⟨1⟩ [0], .leave 1]⟩,
    ⟨some "pong", 1, 2, some [.call 1 ⟨0⟩ [0], .call 2 ⟨1⟩ [0], .leave 2]⟩]⟩

theorem checkReachable_exact_pingPong :
    pingPong.checkReachable ⟨0⟩ = .ok () ∧
      (∀ id definition, pingPong.Connected ⟨0⟩ id → pingPong.get? id = some definition →
        pingPong.Lawful definition) ∧
      ∃ order, pingPong.reachable ⟨0⟩ = .ok order ∧ order.Perm (pingPong.checks ⟨0⟩) := by
  have passed : pingPong.checkReachable ⟨0⟩ = .ok () := by cbv
  obtain ⟨exact, -, -, listed⟩ := checkReachable_exact pingPong ⟨0⟩
  exact ⟨passed, (exact.mp passed).2, listed passed⟩

end Module
end RegisterMachine
