import RegisterMachine.Proofs.Machine.Consistency

/-!
Calls and their returns.

While an activation lasts, the frames below it stay as they are and the stack below its bottom can
be changed by stores only. When it returns, the stack has the length it had at the call, and its
value is where the call wants it.
-/
set_option autoImplicit false

namespace RegisterMachine

/-- The activation of `function` whose slots begin at `bottom`, above the frames `outer`, has not
ended yet; the frames it has called since then stand in front of its own. -/
inductive Active (function : Function) (bottom : Nat) (outer : List Frame) : List Frame → Prop
  | running {frame : Frame} (sameFunction : frame.function = function)
      (sameBottom : frame.bottom = bottom) : Active function bottom outer (frame :: outer)
  | waiting {frame : Frame} {rest : List Frame} (above : bottom ≤ frame.bottom)
      (later : Active function bottom outer rest) : Active function bottom outer (frame :: rest)

namespace Active

variable {function : Function} {bottom : Nat} {outer rest : List Frame} {frame : Frame}

theorem length_lt {frames : List Frame} (active : Active function bottom outer frames) :
    outer.length < frames.length := by
  induction active with
  | running sameFunction sameBottom => simp
  | waiting above later ih =>
      simp only [List.length_cons]
      omega

theorem bottom_le (active : Active function bottom outer (frame :: rest)) :
    bottom ≤ frame.bottom := by
  cases active with
  | running sameFunction sameBottom => exact Nat.le_of_eq sameBottom.symm
  | waiting above later => exact above

theorem move (active : Active function bottom outer (frame :: rest)) (pc : Nat) :
    Active function bottom outer ({ frame with pc := pc } :: rest) := by
  cases active with
  | running sameFunction sameBottom => exact .running sameFunction sameBottom
  | waiting above later => exact .waiting above later

theorem pop (active : Active function bottom outer (frame :: rest))
    (deeper : rest.length ≠ outer.length) : Active function bottom outer rest := by
  cases active with
  | running sameFunction sameBottom => exact absurd rfl deeper
  | waiting above later => exact later

/-- The frame that stands directly on `outer` is the activation's own. -/
theorem eq_of_length (active : Active function bottom outer (frame :: rest))
    (back : rest.length = outer.length) :
    frame.function = function ∧ frame.bottom = bottom ∧ rest = outer := by
  cases active with
  | running sameFunction sameBottom => exact ⟨sameFunction, sameBottom, rfl⟩
  | waiting above later =>
      have deeper := later.length_lt
      omega

end Active

namespace Machine

/-- The absolute index of the cell that the current instruction is about to store to. -/
def storeAddress? (machine : Machine) : Option Nat :=
  match machine.frames with
  | [] => none
  | frame :: _ =>
    match frame.instruction with
    | .ok (.store _ x _) =>
      match frame.readCell machine.stack x with
      | .ok cell => some cell.address
      | .error _ => none
    | _ => none

theorem storeAddress?_of_store {machine : Machine} {frame : Frame} {callers : List Frame}
    {access : Access} {x y : Slot} {cell : Cell} (running : machine.frames = frame :: callers)
    (current : frame.instruction = .ok (.store access x y))
    (addressed : frame.readCell machine.stack x = .ok cell) :
    machine.storeAddress? = some cell.address := by
  simp [storeAddress?, running, current, addressed]

/-- The activation has not ended yet, and the stack reaches up to its slots. -/
structure Inside (function : Function) (bottom : Nat) (outer : List Frame) (machine : Machine) :
    Prop where
  active : Active function bottom outer machine.frames
  reaches : bottom ≤ machine.stack.size

namespace Inside

variable {env : Environment} {function : Function} {bottom : Nat} {outer : List Frame}
  {machine next : Machine}

/-- An activation lasts until the frames below it are all that is left. -/
theorem progress (inside : Inside function bottom outer machine)
    (taken : Progress env machine next) (deeper : next.depth ≠ outer.length) :
    Inside function bottom outer next := by
  obtain ⟨active, reaches⟩ := inside
  cases taken with
  | assigned running current target callee within more =>
      exact ⟨(running ▸ active).move _, by simpa using reaches⟩
  | allocated running current addressable room within more =>
      refine ⟨(running ▸ active).move _, ?_⟩
      simp only [ValueStack.size_put, ValueStack.size_push]
      omega
  | stored running current addressed read more =>
      exact ⟨(running ▸ active).move _, by simpa using reaches⟩
  | jumped running current named choice within =>
      exact ⟨(running ▸ active).move _, reaches⟩
  | entered running current found arity shallow read room =>
      refine ⟨.waiting reaches (running ▸ active), ?_⟩
      simp only [ValueStack.size_pushWindow]
      omega
  | returned running current read site within more =>
      rw [running] at active
      have above := active.bottom_le
      refine ⟨(active.pop (by simpa [depth] using deeper)).move _, ?_⟩
      simp only [ValueStack.size_put, ValueStack.size_truncate]
      omega

/-- Below an activation only a store changes the stack. -/
theorem getElem?_progress {index : Nat} (inside : Inside function bottom outer machine)
    (taken : Progress env machine next) (deeper : next.depth ≠ outer.length)
    (below : index < bottom) (untouched : machine.storeAddress? ≠ some index) :
    next.stack.values[index]? = machine.stack.values[index]? := by
  obtain ⟨active, reaches⟩ := inside
  cases taken with
  | assigned running current target callee within more =>
      have above := (running ▸ active).bottom_le
      exact ValueStack.getElem?_put_of_ne (by omega)
  | allocated running current addressable room within more =>
      have above := (running ▸ active).bottom_le
      rw [ValueStack.getElem?_put_of_ne (by omega)]
      exact ValueStack.getElem?_push_of_lt (by omega)
  | stored running current addressed read more =>
      rw [storeAddress?_of_store running current addressed] at untouched
      exact ValueStack.getElem?_put_of_ne fun same => untouched (congrArg some same)
  | jumped running current named choice within => rfl
  | entered running current found arity shallow read room =>
      exact ValueStack.getElem?_pushWindow_of_lt (by omega)
  | returned running current read site within more =>
      rw [running] at active
      have above := active.bottom_le
      have callerAbove := (active.pop (by simpa [depth] using deeper)).bottom_le
      rw [ValueStack.getElem?_put_of_ne (by omega)]
      exact ValueStack.getElem?_truncate_of_lt (by omega)

/-- What holds inside an activation holds as long as the run stays in it: the frames below are the
same, and a cell below it that has changed was stored to on the way. -/
theorem run {count : Nat} (inside : Inside function bottom outer machine)
    (ran : run env count machine = (.running, next))
    (deeper : ∀ i between, i ≤ count → Machine.run env i machine = (.running, between) →
      between.depth ≠ outer.length) :
    Inside function bottom outer next ∧
      ∀ index < bottom, next.stack.values[index]? ≠ machine.stack.values[index]? →
        ∃ i between, i < count ∧ Machine.run env i machine = (.running, between) ∧
          between.storeAddress? = some index := by
  induction count generalizing next with
  | zero =>
      cases ran
      exact ⟨inside, fun index below changed => absurd rfl changed⟩
  | succ count ih =>
      obtain ⟨last, before, final⟩ := run_succ_eq_running_last.mp ran
      have taken := progress_of_step final
      have still := deeper (count + 1) next (Nat.le_refl _) ran
      obtain ⟨here, traced⟩ := ih before fun i between early => deeper i between (by omega)
      refine ⟨here.progress taken still, ?_⟩
      intro index below changed
      -- Either the last step stored to the cell, or the cell had changed before it.
      by_cases stored : last.storeAddress? = some index
      · exact ⟨count, last, by omega, before, stored⟩
      · rw [here.getElem?_progress taken still below stored] at changed
        obtain ⟨i, between, early, reached, stored⟩ := traced index below changed
        exact ⟨i, between, by omega, reached, stored⟩

/-- The step that ends an activation is its own return. -/
theorem returned (inside : Inside function bottom outer machine)
    (taken : Progress env machine next) (back : next.depth = outer.length) :
    ∃ frame caller rest x value dest callee args,
      machine.frames = frame :: outer ∧ frame.function = function ∧ frame.bottom = bottom ∧
      frame.instruction = .ok (.leave x) ∧ frame.read machine.stack x.toNat = .ok value ∧
      outer = caller :: rest ∧ caller.instruction = .ok (.call dest callee args) ∧
      caller.bottom + dest.toNat < bottom ∧
      next.stack = (machine.stack.truncate bottom).put (caller.bottom + dest.toNat) value ∧
      next.frames = { caller with pc := caller.pc + 1 } :: rest := by
  obtain ⟨active, reaches⟩ := inside
  have deeper := active.length_lt
  cases taken with
  | assigned running | allocated running | stored running | jumped running | entered running =>
      simp only [running, List.length_cons] at deeper
      simp only [depth, List.length_cons] at back
      omega
  | @returned frame caller rest x dest callee args value running current read site within more =>
      rw [running] at active
      obtain ⟨sameFunction, rfl, rfl⟩ := active.eq_of_length (by simpa [depth] using back)
      refine ⟨frame, caller, rest, x, value, dest, callee, args, running, sameFunction, rfl,
        current, read, rfl, site, ?_, rfl, rfl⟩
      simp only [ValueStack.size_truncate] at within
      omega

end Inside

/-- The instruction that a machine is at is determined by its frames. -/
theorem current_unique {machine : Machine} {frame other : Frame} {callers others : List Frame}
    {instruction found : Instruction} (running : machine.frames = frame :: callers)
    (current : frame.instruction = .ok instruction) (front : machine.frames = other :: others)
    (here : other.instruction = .ok found) : other = frame ∧ found = instruction := by
  rw [running] at front
  cases front
  rw [current] at here
  cases here
  exact ⟨rfl, rfl⟩

/-- A step from a call enters the function that it names. -/
theorem entered_of_progress {env : Environment} {machine next : Machine} {frame : Frame}
    {callers : List Frame} {dest : Slot} {callee : FuncId} {args : List Slot}
    (taken : Progress env machine next) (running : machine.frames = frame :: callers)
    (current : frame.instruction = .ok (.call dest callee args)) :
    ∃ function values, frame.function.callee? callee = some function ∧
      next.stack = machine.stack.pushWindow values function.numLocals.toNat ∧
      next.frames = ⟨machine.stack.size, function, 0⟩ :: machine.frames := by
  cases taken with
  | assigned front here target other =>
      obtain ⟨-, rfl⟩ := current_unique running current front here
      cases other
  | allocated front here | stored front here | returned front here =>
      cases (current_unique running current front here).2
  | jumped front here named =>
      obtain ⟨-, rfl⟩ := current_unique running current front here
      cases named
  | entered front here found =>
      obtain ⟨rfl, same⟩ := current_unique running current front here
      cases same
      exact ⟨_, _, found, rfl, by rw [front]⟩

/-- A run from a call that has come back to the call's depth for the first time. -/
structure Bracket (env : Environment) (call : Machine) (count : Nat) (back : Machine) : Prop where
  ran : run env count call = (.running, back)
  nonempty : 0 < count
  level : back.depth = call.depth
  first : ∀ i between, 0 < i → i < count → run env i call = (.running, between) →
    between.depth ≠ call.depth

/-- A run from a call to its return enters the callee, stays in that activation, and ends with its
return. -/
theorem Bracket.split {env : Environment} {call back : Machine} {count : Nat} {frame : Frame}
    {callers : List Frame} {dest : Slot} {callee : FuncId} {args : List Slot}
    (bracket : Bracket env call count back) (running : call.frames = frame :: callers)
    (current : frame.instruction = .ok (.call dest callee args)) :
    ∃ function entry inner last, count = inner + 2 ∧
      frame.function.callee? callee = some function ∧
      step env call = (.running, entry) ∧
      (∀ index < call.stack.size, entry.stack.values[index]? = call.stack.values[index]?) ∧
      Inside function call.stack.size call.frames entry ∧
      run env inner entry = (.running, last) ∧ step env last = (.running, back) ∧
      ∀ i between, i ≤ inner → run env i entry = (.running, between) →
        between.depth ≠ call.frames.length := by
  obtain ⟨ran, nonempty, level, first⟩ := bracket
  obtain ⟨rest, rfl⟩ := Nat.exists_eq_succ_of_ne_zero (Nat.ne_of_gt nonempty)
  obtain ⟨entry, entered, ran⟩ := run_succ_eq_running.mp ran
  obtain ⟨function, values, found, stack, frames⟩ :=
    entered_of_progress (progress_of_step entered) running current
  cases rest with
  | zero =>
      -- The callee cannot have returned yet.
      cases ran
      simp [depth, frames] at level
  | succ inner =>
      obtain ⟨last, before, final⟩ := run_succ_eq_running_last.mp ran
      refine ⟨function, entry, inner, last, rfl, found, entered, ?_, ⟨?_, ?_⟩, before, final, ?_⟩
      · intro index below
        rw [stack]
        exact ValueStack.getElem?_pushWindow_of_lt below
      · rw [frames]
        exact .running rfl rfl
      · rw [stack, ValueStack.size_pushWindow]
        omega
      · intro i between early reached
        exact first (i + 1) between (by omega) (by omega)
          (run_succ_eq_running.mpr ⟨entry, entered, reached⟩)

/-- The outermost function owns the whole stack. -/
theorem Consistent.empty_of_returned {env : Environment} {machine next : Machine} {value : Value}
    (consistent : machine.Consistent) (ended : Machine.step env machine = (.returned value, next)) :
    next.stack = .empty ∧ next.frames = [] := by
  obtain ⟨frame, x, running, -, -, rfl⟩ := returned_of_step ended
  have activations := consistent.activations
  rw [running] at activations
  cases activations with
  | outermost bottom inCode => simp [bottom, ValueStack.truncate, ValueStack.empty]

/-- Calls and returns are brackets. When the callee of a call comes back, the frames below the
caller are what they were and the caller has moved past the call; the stack has its old length and
the value that the callee's return read in the destination of the call; and any other cell that
differs was addressed by a store in between. When the outermost function returns, nothing is left
on either stack. -/
theorem call_brackets_return (env : Environment) (before : Machine) (function : Function)
    (args : List Value) :
    (∀ call count back frame callers dest callee slots, Bracket env call count back →
      call.frames = frame :: callers → frame.instruction = .ok (.call dest callee slots) →
      back.frames = { frame with pc := frame.pc + 1 } :: callers ∧
      back.stack.size = call.stack.size ∧
      (∃ last inner x value, run env (count - 1) call = (.running, last) ∧
        last.frames = inner :: call.frames ∧ frame.function.callee? callee = some inner.function ∧
        inner.instruction = .ok (.leave x) ∧ inner.read last.stack x.toNat = .ok value ∧
        back.stack.values[frame.bottom + dest.toNat]? = some value) ∧
      ∀ index < call.stack.size, index ≠ frame.bottom + dest.toNat →
        back.stack.values[index]? ≠ call.stack.values[index]? →
        ∃ i between, 0 < i ∧ i < count ∧ run env i call = (.running, between) ∧
          between.storeAddress? = some index) ∧
    ∀ fuel value after, before.interpret env fuel function args = (.returned value, after) →
      after.stack = .empty ∧ after.frames = [] := by
  constructor
  · intro call count back frame callers dest callee slots bracket running current
    obtain ⟨entered, entry, inner, last, rfl, found, first, kept, start, ran, final, deeper⟩ :=
      bracket.split running current
    obtain ⟨inside, traced⟩ := start.run ran deeper
    obtain ⟨top, caller, rest, x, value, target, named, passed, frames, sameFunction, sameBottom,
      leave, read, outer, site, within, stack, moved⟩ :=
      inside.returned (progress_of_step final) bracket.level
    rw [running] at outer
    cases outer
    rw [current] at site
    cases site
    have size : (last.stack.truncate call.stack.size).size = call.stack.size := by
      have reaches := inside.reaches
      simp only [ValueStack.size_truncate]
      omega
    refine ⟨moved, ?_, ⟨last, top, x, value, ?_, frames, ?_, leave, read, ?_⟩, ?_⟩
    · rw [stack, ValueStack.size_put, size]
    · exact run_succ_eq_running.mpr ⟨entry, first, ran⟩
    · rw [sameFunction, found]
    · rw [stack]
      exact ValueStack.getElem?_put_self (by omega)
    · intro index below other changed
      rw [stack, ValueStack.getElem?_put_of_ne (Ne.symm other),
        ValueStack.getElem?_truncate_of_lt below, ← kept index below] at changed
      obtain ⟨i, between, early, reached, stored⟩ := traced index below changed
      exact ⟨i + 1, between, by omega, by omega,
        run_succ_eq_running.mpr ⟨entry, first, reached⟩, stored⟩
  · intro fuel value after ended
    obtain ⟨count, last, ran, final⟩ := interpret_eq_returned ended
    have consistent := Consistent.interpret env count before function args
    rw [ran] at consistent
    exact consistent.empty_of_returned final

theorem bracket_poking :
    Bracket ⟨.unlimited, none, none⟩ (pokingAfter 1) 4 (pokingAfter 5) where
  ran := rfl
  nonempty := by decide
  level := by decide
  first := by
    intro i between positive early reached
    match i with
    | 1 | 2 | 3 =>
        cases reached
        decide

theorem call_brackets_return_poking :
    (pokingAfter 5).stack.size = (pokingAfter 1).stack.size ∧
      (pokingAfter 5).stack.values[3]? ≠ (pokingAfter 1).stack.values[3]? ∧
      ∃ i between, 0 < i ∧ i < 4 ∧
        run ⟨.unlimited, none, none⟩ i (pokingAfter 1) = (.running, between) ∧
        between.storeAddress? = some 3 := by
  have changed : (pokingAfter 5).stack.values[3]? ≠ (pokingAfter 1).stack.values[3]? := by decide
  obtain ⟨-, size, -, traced⟩ := (call_brackets_return ⟨.unlimited, none, none⟩ .idle poking []).1
    (pokingAfter 1) 4 (pokingAfter 5) ⟨0, poking, 1⟩ [] 1 ⟨1⟩ [0] bracket_poking rfl rfl
  exact ⟨size, changed, traced 3 (by decide) (by decide) changed⟩

end Machine
end RegisterMachine
