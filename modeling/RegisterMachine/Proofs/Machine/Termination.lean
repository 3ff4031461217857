import Mathlib.Algebra.GroupWithZero.Nat
import Mathlib.Algebra.Order.BigOperators.Group.List
import Mathlib.Algebra.Order.Group.Nat
import Mathlib.Data.List.Perm.Subperm
import RegisterMachine.Proofs.Machine.Soundness

/-!
Code without loops comes to an end.

Where jumps only lead forward, an activation executes each of its instructions at most once. Where
no function can be called again before it has returned, calls can be replaced by the code they
enter. What is then left to execute, in the running frame and in those that wait for it, becomes
less with every step.
-/
set_option autoImplicit false

namespace RegisterMachine

/-- The instructions that one instruction has executed, itself included, where `work` gives those of
calls. -/
def Instruction.cost (work : FuncId → Nat) (instruction : Instruction) : Nat :=
  match instruction.callee? with
  | some callee => work callee + 1
  | none => 1

/-- The instructions executed if each one of `code` is executed once. -/
def codeCost (work : FuncId → Nat) (code : List Instruction) : Nat :=
  (code.map (Instruction.cost work)).sum

section Cost

variable {work more : FuncId → Nat} {code : List Instruction} {instruction : Instruction}

theorem Instruction.cost_pos (work : FuncId → Nat) (instruction : Instruction) :
    0 < instruction.cost work := by
  unfold cost
  split <;> omega

theorem Instruction.cost_mono
    (below : ∀ callee, instruction.callee? = some callee → work callee ≤ more callee) :
    instruction.cost work ≤ instruction.cost more := by
  unfold cost
  split
  · exact Nat.succ_le_succ (below _ ‹_›)
  · exact Nat.le_refl _

theorem codeCost_mono
    (below : ∀ callee ∈ code.filterMap Instruction.callee?, work callee ≤ more callee) :
    codeCost work code ≤ codeCost more code := by
  apply List.sum_le_sum
  intro instruction member
  apply Instruction.cost_mono
  intro callee called
  exact below callee (List.mem_filterMap.mpr ⟨instruction, member, called⟩)

theorem cost_add_codeCost_drop (work : FuncId → Nat) {pc next : Nat}
    (here : code[pc]? = some instruction) (later : pc < next) :
    instruction.cost work + codeCost work (code.drop next) ≤ codeCost work (code.drop pc) := by
  obtain ⟨inside, rfl⟩ := List.getElem?_eq_some_iff.mp here
  have rest : codeCost work (code.drop next) ≤ codeCost work (code.drop (pc + 1)) := by
    obtain ⟨skipped, rfl⟩ := Nat.exists_eq_add_of_lt later
    rw [show pc + skipped + 1 = pc + 1 + skipped by omega, ← List.drop_drop]
    exact List.Sublist.sum_le_sum (((code.drop (pc + 1)).drop_sublist skipped).map _)
      fun _ _ => Nat.zero_le _
  have split : codeCost work (code.drop pc) =
      code[pc].cost work + codeCost work (code.drop (pc + 1)) := by
    rw [List.drop_eq_getElem_cons inside]
    rfl
  omega

end Cost

namespace Module

variable {module : Module}

/-- The number of functions that calls lead to, `id` itself included. -/
def reach (module : Module) (id : FuncId) : Nat :=
  match module.reachable id with
  | .ok order => order.length
  | .error _ => 0

/-- The instructions of a call of `id`, if each one is executed once and calls are at most `depth`
deep. -/
def workWithin (module : Module) : Nat → FuncId → Nat
  | 0, _ => 0
  | depth + 1, id =>
    match module.get? id with
    | some definition => codeCost (module.workWithin depth) definition.code
    | none => 0

/-- The instructions of a call of `id`, if each one is executed once. Calls that do not run in
circles are no deeper than there are functions to call. -/
def work (module : Module) (id : FuncId) : Nat :=
  module.workWithin (module.reach id) id

theorem workWithin_mono {depth more : Nat} (deeper : depth ≤ more) (id : FuncId) :
    module.workWithin depth id ≤ module.workWithin more id := by
  induction depth generalizing more id with
  | zero => exact Nat.zero_le _
  | succ depth ih =>
      cases more with
      | zero => omega
      | succ more =>
          simp only [workWithin]
          split
          · apply codeCost_mono
            intro callee _
            exact ih (Nat.le_of_succ_le_succ deeper) callee
          · exact Nat.le_refl _

theorem exists_reachable_of_connected {entry id : FuncId} {order : List FuncId}
    (found : module.reachable entry = .ok order) (connected : module.Connected entry id) :
    ∃ onward, module.reachable id = .ok onward := by
  obtain ⟨-, closed, member⟩ := reachable_eq_ok found
  have reached : id ∈ order := closed.mem_of_connected member connected
  exact closed.exists_reachableFrom (List.cons_subset.mpr ⟨reached, List.nil_subset order⟩)

-- What the callee leads to, and the caller besides, is among what the caller leads to.
theorem reach_lt_of_calls {caller callee : FuncId} {order : List FuncId}
    (found : module.reachable caller = .ok order) (calls : module.Calls caller callee)
    (acyclic : ¬ Relation.TransGen module.Calls caller caller) :
    module.reach callee < module.reach caller := by
  obtain ⟨-, closed, member⟩ := reachable_eq_ok found
  have called : callee ∈ order := closed.callees caller member callee calls
  obtain ⟨onward, search⟩ := exists_reachable_of_connected found (.single calls)
  obtain ⟨distinct, -, -⟩ := reachable_eq_ok search
  have absent : caller ∉ onward := by
    intro again
    exact acyclic (.head' calls (connected_of_mem_reachable search again))
  have inside : caller :: onward ⊆ order := by
    apply List.cons_subset.mpr
    refine ⟨member, ?_⟩
    intro id reached
    exact closed.mem_of_connected called (connected_of_mem_reachable search reached)
  have fewer := ((List.nodup_cons.mpr ⟨absent, distinct⟩).subperm inside).length_le
  simp only [reach, found, search]
  exact fewer

theorem codeCost_le_work {id : FuncId} {definition : Definition} {order : List FuncId}
    (found : module.reachable id = .ok order) (present : module.get? id = some definition)
    (acyclic : ¬ Relation.TransGen module.Calls id id) :
    codeCost module.work definition.code ≤ module.work id := by
  obtain ⟨callees, rfl⟩ := reachable_eq_cons found
  have unfolded : module.work id =
      codeCost (module.workWithin callees.length) definition.code := by
    simp only [work, reach, found, List.length_cons, workWithin, present]
  rw [unfolded]
  apply codeCost_mono
  intro callee called
  have calls : module.Calls id callee := by
    rwa [Calls, calleesOf_of_get? present]
  have fewer := reach_lt_of_calls found calls acyclic
  apply workWithin_mono
  simp only [reach, found, List.length_cons] at fewer ⊢
  omega

end Module

/-- Every jump and branch leads to a later instruction. -/
def Definition.JumpsForward (definition : Definition) : Prop :=
  ∀ pc, ∀ inside : pc < definition.code.length,
    ∀ target ∈ definition.code[pc].target?, pc < target.toNat

-- Spelled out, lest all numbers of a target's width are tried in turn.
instance (definition : Definition) : Decidable definition.JumpsForward :=
  @Nat.decidableBallLT _ _ fun _ _ => Option.decidableForallMem _

/-- Of the functions that calls lead to, none is called again before it has returned, and all jump
forward. -/
structure Function.LoopFree (function : Function) : Prop where
  acyclic : ∀ id, function.module.Connected function.id id →
    ¬ Relation.TransGen function.module.Calls id id
  forward : ∀ id definition, function.module.Connected function.id id →
    function.module.get? id = some definition → definition.JumpsForward

namespace Function.LoopFree

variable {function other : Function}

theorem codeCost_le_work (loopFree : function.LoopFree) (verified : function.verifyAll = .ok ())
    (reaches : function.Reaches other) :
    codeCost function.module.work other.code ≤ function.module.work other.id := by
  obtain ⟨order, found⟩ := Module.exists_reachable_of_checkReachable verified
  obtain ⟨onward, search⟩ := Module.exists_reachable_of_connected found reaches.connected
  have present : function.module.get? other.id = some other.definition :=
    reaches.sameModule ▸ other.get?_id
  exact Module.codeCost_le_work search present (loopFree.acyclic other.id reaches.connected)

theorem lt_target (loopFree : function.LoopFree) {frame : Frame} {instruction : Instruction}
    {target : UInt16} (reaches : function.Reaches frame.function)
    (current : frame.instruction = .ok instruction) (named : instruction.target? = some target) :
    frame.pc < target.toNat := by
  have present : function.module.get? frame.function.id = some frame.function.definition :=
    reaches.sameModule ▸ frame.function.get?_id
  have forward := loopFree.forward _ _ reaches.connected present
  obtain ⟨inside, rfl⟩ := List.getElem?_eq_some_iff.mp (Frame.instruction_eq_ok_iff.mp current)
  exact forward frame.pc inside target named

end Function.LoopFree

/-- The instructions that a frame executes from `pc` on, if it executes each one once. -/
def Frame.costFrom (work : FuncId → Nat) (frame : Frame) (pc : Nat) : Nat :=
  codeCost work (frame.function.code.drop pc)

theorem Frame.cost_add_costFrom (work : FuncId → Nat) {frame : Frame} {instruction : Instruction}
    {next : Nat} (current : frame.instruction = .ok instruction) (later : frame.pc < next) :
    instruction.cost work + frame.costFrom work next ≤ frame.costFrom work frame.pc :=
  cost_add_codeCost_drop work (Frame.instruction_eq_ok_iff.mp current) later

namespace Machine

/-- What is left to execute of frames that wait for a call to return. -/
def waitingCost (work : FuncId → Nat) (callers : List Frame) : Nat :=
  (callers.map fun caller => caller.costFrom work (caller.pc + 1)).sum

/-- What is left to execute of the running frame and of those that wait for it. -/
def remaining (work : FuncId → Nat) (machine : Machine) : Nat :=
  match machine.frames with
  | [] => 0
  | frame :: callers => frame.costFrom work frame.pc + waitingCost work callers

section

variable {function : Function} {machine next : Machine} {env : Environment}

theorem remaining_of_frames {work : FuncId → Nat} {frame : Frame} {callers : List Frame}
    (running : machine.frames = frame :: callers) :
    machine.remaining work = frame.costFrom work frame.pc + waitingCost work callers := by
  simp only [remaining, running]

theorem remaining_lt_of_advance (work : FuncId → Nat) {frame : Frame} {callers : List Frame}
    {instruction : Instruction} {pc : Nat} (running : machine.frames = frame :: callers)
    (current : frame.instruction = .ok instruction) (later : frame.pc < pc)
    (moved : next.frames = { frame with pc := pc } :: callers) :
    next.remaining work < machine.remaining work := by
  have paid := Frame.cost_add_costFrom work current later
  have positive := instruction.cost_pos work
  rw [remaining_of_frames running, remaining_of_frames moved]
  simp only [Frame.costFrom] at paid ⊢
  omega

/-- Every step that goes on leaves less to execute. -/
theorem remaining_lt_of_progress (loopFree : function.LoopFree)
    (verified : function.verifyAll = .ok ()) (within : machine.RunsWithin function)
    (taken : Progress env machine next) :
    next.remaining function.module.work < machine.remaining function.module.work := by
  cases taken with
  | assigned running current target callee inside more =>
      exact remaining_lt_of_advance _ running current (Nat.lt_add_one _) rfl
  | allocated running current addressable room inside more =>
      exact remaining_lt_of_advance _ running current (Nat.lt_add_one _) rfl
  | stored running current addressed read more =>
      exact remaining_lt_of_advance _ running current (Nat.lt_add_one _) rfl
  | jumped running current named choice inside =>
      have later := loopFree.lt_target (within.reaches_running running) current named
      refine remaining_lt_of_advance _ running current ?_ rfl
      omega
  | @entered frame callers dest callee args entered values running current found arity shallow
      read room =>
      -- The call's cost covers the callee's code and one more, and the caller waits behind it.
      have reaches := (within.reaches_running running).call
        (Frame.mem_callees_of_instruction current) found
      have covered := loopFree.codeCost_le_work verified reaches
      have paid := Frame.cost_add_costFrom function.module.work current (Nat.lt_add_one frame.pc)
      obtain ⟨-, -, rfl⟩ := Function.callee?_eq_some found
      rw [remaining_of_frames running, remaining_of_frames rfl]
      simp only [waitingCost, List.map_cons, List.sum_cons, Frame.costFrom, List.drop_zero,
        Instruction.cost, Instruction.callee?] at paid ⊢
      omega
  | @returned frame caller rest x dest callee args value running current read site inside more =>
      -- The caller's code was counted from the instruction after the call already.
      have paid := Frame.cost_add_costFrom function.module.work current (Nat.lt_add_one frame.pc)
      have positive := Instruction.cost_pos function.module.work (.leave x)
      rw [remaining_of_frames running, remaining_of_frames rfl]
      simp only [waitingCost, List.map_cons, List.sum_cons, Frame.costFrom] at paid ⊢
      omega

theorem remaining_of_start {limits : Limits} {before started : Machine} {args : List Value}
    (loopFree : function.LoopFree) (verified : function.verifyAll = .ok ())
    (entered : before.start limits function args = (.running, started)) :
    started.remaining function.module.work ≤ function.module.work function.id := by
  obtain ⟨-, -, rfl⟩ := start_eq_running entered
  have covered := loopFree.codeCost_le_work verified (Function.Reaches.refl function)
  rw [remaining_of_frames rfl]
  simpa [waitingCost, Frame.costFrom] using covered

theorem remaining_add_of_interpret {before : Machine} {count : Nat} {args : List Value}
    (loopFree : function.LoopFree) (verified : function.verifyAll = .ok ())
    (ran : before.interpret env count function args = (.running, machine)) :
    machine.remaining function.module.work + count ≤ function.module.work function.id := by
  induction count generalizing machine with
  | zero =>
      obtain ⟨started, entered, ran⟩ := interpret_eq_running.mp ran
      cases ran
      exact remaining_of_start loopFree verified entered
  | succ count ih =>
      obtain ⟨last, ran, taken⟩ := interpret_succ_eq_running.mp ran
      have less := remaining_lt_of_progress loopFree verified (RunsWithin.of_interpret ran)
        (progress_of_step taken)
      have before := ih ran
      omega

end

theorem interpret_eq_of_le {env : Environment} {before : Machine} {function : Function}
    {args : List Value} {fuel more : Nat} (enough : fuel ≤ more)
    (ended : (before.interpret env fuel function args).1 ≠ .running) :
    before.interpret env more function args = before.interpret env fuel function args := by
  obtain ⟨extra, rfl⟩ := Nat.exists_eq_add_of_le enough
  rw [interpret_add]
  split
  · rename_i next ran
    rw [ran] at ended
    exact absurd rfl ended
  · rfl

/-- A run of verified code without loops ends, whatever it is given and wherever it runs, with
limits or without. If it may take more steps than it has instructions with calls replaced by the
code they enter, it ends in a value or a fault, and in the same one however many more they are. -/
theorem loopFree_run_ends {function : Function} (verified : function.verifyAll = .ok ())
    (loopFree : function.LoopFree) (env : Environment) (before : Machine) (args : List Value) :
    ∃ status next, ((∃ value, status = .returned value) ∨ ∃ fault, status = .faulted fault) ∧
      ∀ fuel, function.module.work function.id < fuel →
        before.interpret env fuel function args = (status, next) := by
  have ended : (before.interpret env (function.module.work function.id + 1) function args).1 ≠
      .running := by
    intro still
    have left := remaining_add_of_interpret loopFree verified (Prod.ext still rfl)
    omega
  refine ⟨_, _, ?_, fun fuel enough => interpret_eq_of_le enough ended⟩
  cases outcome : (before.interpret env (function.module.work function.id + 1) function args).1 with
  | running => exact absurd outcome ended
  | returned value => exact .inl ⟨value, outcome⟩
  | faulted fault => exact .inr ⟨fault, outcome⟩

/-- A function that calls a second one unless its argument says otherwise, and a third one in any
case, which the second calls as well. -/
def layered : Function where
  stamp := ⟨0, 0⟩
  module := ⟨[
    ⟨some "top", 1, 2, some [.branch 0 2, .call 1 ⟨1⟩ [0], .call 2 ⟨2⟩ [0], .leave 2]⟩,
    ⟨some "middle", 1, 1, some [.call 1 ⟨2⟩ [0], .leave 1]⟩,
    ⟨some "bottom", 1, 0, some [.leave 0]⟩]⟩
  id := ⟨0⟩
  inModule := by decide

theorem loopFree_layered : layered.LoopFree := by
  have ordered : ∀ {caller callee : FuncId}, layered.module.Calls caller callee →
      caller.index < callee.index := by
    intro caller callee calls
    have listed : ∀ id ∈ layered.module.ids, ∀ callee ∈ layered.module.calleesOf id,
        id.index < callee.index := by decide
    cases present : layered.module.get? caller with
    | none => simp [Module.Calls, Module.calleesOf, present] at calls
    | some definition => exact listed caller (Module.mem_ids_of_get?_eq_some present) callee calls
  have further : ∀ {caller callee : FuncId},
      Relation.TransGen layered.module.Calls caller callee → caller.index < callee.index := by
    intro caller callee chain
    induction chain with
    | single calls => exact ordered calls
    | tail chain calls ih => exact Nat.lt_trans ih (ordered calls)
  constructor
  · intro id _ circle
    exact Nat.lt_irrefl _ (further circle)
  · intro id definition _ present
    have all : ∀ definition ∈ layered.module.functions, definition.JumpsForward := by decide
    exact all definition (List.mem_of_getElem? present)

theorem loopFree_run_ends_layered :
    layered.verifyAll = .ok () ∧ layered.module.work layered.id = 8 ∧
      ∀ fuel, 8 < fuel →
        (Machine.idle.interpret ⟨.unlimited, none, none⟩ fuel layered [.int32 0]).1 =
          .returned (.int32 0) := by
  have verified : layered.verifyAll = .ok () := by cbv
  have work : layered.module.work layered.id = 8 := by cbv
  obtain ⟨status, next, -, ended⟩ := loopFree_run_ends verified loopFree_layered
    ⟨.unlimited, none, none⟩ .idle [.int32 0]
  rw [work] at ended
  refine ⟨verified, work, ?_⟩
  intro fuel enough
  have within : (Machine.idle.interpret ⟨.unlimited, none, none⟩ 9 layered [.int32 0]).1 =
      .returned (.int32 0) := by cbv
  rw [ended fuel enough, ← ended 9 (by decide)]
  exact within

end Machine
end RegisterMachine
