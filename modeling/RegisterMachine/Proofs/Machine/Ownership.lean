import RegisterMachine.Proofs.Machine.Bracketing
import RegisterMachine.Proofs.Machine.Soundness

/-!
Places on the stack that an activation keeps to itself.

A place that the code of an activation never assigns, and that lies below everything the activation
calls, is out of reach of all frames that run while the activation lasts. What it holds is then a
matter of the stores that address it.
-/
set_option autoImplicit false

namespace RegisterMachine

def Instruction.isStore : Instruction → Bool
  | .store _ _ _ => true
  | _ => false

theorem Instruction.isStore_of_dest? {instruction : Instruction} {dest : Slot}
    (target : instruction.dest? = some dest) : instruction.isStore = false := by
  cases instruction with
  | store => cases target
  | _ => rfl

theorem Instruction.isStore_of_target? {instruction : Instruction} {target : UInt16}
    (named : instruction.target? = some target) : instruction.isStore = false := by
  cases instruction with
  | store => cases named
  | _ => rfl

/-- The frames that stand on more than `depth` others begin above `index`. -/
def BeginAbove (index depth : Nat) : List Frame → Prop
  | [] => True
  | frame :: rest => (depth < rest.length → index < frame.bottom) ∧ BeginAbove index depth rest

theorem beginAbove_of_length_le {index depth : Nat} {frames : List Frame}
    (shallow : frames.length ≤ depth + 1) : BeginAbove index depth frames := by
  induction frames with
  | nil => exact trivial
  | cons frame rest ih =>
      simp only [List.length_cons] at shallow
      constructor
      · intro deeper
        omega
      · apply ih
        omega

/-- The code of `function`, running at `bottom`, never assigns the place `index`. -/
def Function.Spares (function : Function) (bottom index : Nat) : Prop :=
  ∀ instruction ∈ function.code, ∀ dest ∈ instruction.dest?, bottom + dest.toNat ≠ index

theorem Active.ne_of_dest {function : Function} {bottom index : Nat} {outer rest : List Frame}
    {frame : Frame} {instruction : Instruction} {dest : Slot}
    (active : Active function bottom outer (frame :: rest))
    (above : BeginAbove index outer.length (frame :: rest))
    (spares : function.Spares bottom index) (current : frame.instruction = .ok instruction)
    (target : instruction.dest? = some dest) : frame.bottom + dest.toNat ≠ index := by
  cases active with
  | running sameFunction sameBottom =>
      subst sameFunction sameBottom
      exact spares instruction (Frame.mem_code_of_instruction current) dest target
  | waiting _ later =>
      have below := above.1 later.length_lt
      omega

namespace Machine

/-! ## Stores -/

/-- The value that the current instruction is about to store to the cell at `address`. -/
def storing? (address : Nat) (machine : Machine) : Option Value :=
  match machine.frames with
  | [] => none
  | frame :: _ =>
    match frame.instruction with
    | .ok (.store _ x y) =>
      match frame.readCell machine.stack x, frame.read machine.stack y.toNat with
      | .ok cell, .ok value => if cell.address = address then some value else none
      | _, _ => none
    | _ => none

/-- The values that the next `count` steps store to the cell at `address`, in order. -/
def storesTo (env : Environment) (address : Nat) : Nat → Machine → List Value
  | 0, _ => []
  | count + 1, machine =>
    (machine.storing? address).toList ++ storesTo env address count (machine.step env).2

theorem storing?_of_store {machine : Machine} {frame : Frame} {callers : List Frame}
    {access : Access} {x y : Slot} {cell : Cell} {value : Value} (address : Nat)
    (running : machine.frames = frame :: callers)
    (current : frame.instruction = .ok (.store access x y))
    (addressed : frame.readCell machine.stack x = .ok cell)
    (read : frame.read machine.stack y.toNat = .ok value) :
    machine.storing? address = if cell.address = address then some value else none := by
  simp [storing?, running, current, addressed, read]

theorem storing?_eq_none {machine : Machine} {frame : Frame} {callers : List Frame}
    {instruction : Instruction} (address : Nat) (running : machine.frames = frame :: callers)
    (current : frame.instruction = .ok instruction)
    (other : instruction.isStore = false) : machine.storing? address = none := by
  simp only [storing?, running, current]
  cases instruction with
  | store => cases other
  | _ => rfl

/-! ## Shielded places -/

/-- The activation of `function` at `bottom`, above the frames `outer`, has not ended yet; the place
`index` is on the stack and below all that the activation has called. -/
structure Shields (function : Function) (bottom : Nat) (outer : List Frame) (index : Nat)
    (machine : Machine) : Prop where
  inside : Inside function bottom outer machine
  onStack : index < machine.stack.size
  above : BeginAbove index outer.length machine.frames

namespace Shields

variable {env : Environment} {function : Function} {bottom index : Nat} {outer : List Frame}
  {machine next : Machine}

theorem progress (shields : Shields function bottom outer index machine)
    (taken : Progress env machine next) (deeper : next.depth ≠ outer.length) :
    Shields function bottom outer index next := by
  obtain ⟨inside, onStack, above⟩ := shields
  refine ⟨inside.progress taken deeper, ?_, ?_⟩
  · cases taken with
    | assigned | stored => simpa using onStack
    | jumped => exact onStack
    | allocated =>
        simp only [ValueStack.size_put, ValueStack.size_push]
        omega
    | entered =>
        simp only [ValueStack.size_pushWindow]
        omega
    | returned running =>
        rw [running] at above
        have active := inside.active
        rw [running] at active
        have below := above.1 (active.pop (by simpa [depth] using deeper)).length_lt
        simp only [ValueStack.size_put, ValueStack.size_truncate]
        omega
  · cases taken with
    | assigned running | allocated running | stored running | jumped running =>
        rw [running] at above
        exact above
    | entered running =>
        refine ⟨fun _ => onStack, ?_⟩
        rw [← running]
        exact above
    | returned running =>
        rw [running] at above
        exact above.2

/-- A shielded place that is never assigned holds what was stored there last. -/
theorem getElem?_progress {content : Value} (shields : Shields function bottom outer index machine)
    (spares : function.Spares bottom index) (taken : Progress env machine next)
    (deeper : next.depth ≠ outer.length) (holds : machine.stack.values[index]? = some content) :
    next.stack.values[index]? = some ((machine.storing? index).getD content) := by
  obtain ⟨inside, onStack, above⟩ := shields
  have active := inside.active
  cases taken with
  | assigned running current target =>
      rw [storing?_eq_none index running current (Instruction.isStore_of_dest? target)]
      rw [running] at active above
      rw [ValueStack.getElem?_put_of_ne (active.ne_of_dest above spares current target)]
      exact holds
  | allocated running current =>
      rw [storing?_eq_none index running current rfl]
      rw [running] at active above
      rw [ValueStack.getElem?_put_of_ne (active.ne_of_dest above spares current rfl),
        ValueStack.getElem?_push_of_lt onStack]
      exact holds
  | @stored frame callers access x y cell value running current addressed read =>
      rw [storing?_of_store index running current addressed read]
      by_cases here : cell.address = index
      · subst here
        rw [if_pos rfl]
        exact ValueStack.getElem?_put_self onStack
      · rw [if_neg here, ValueStack.getElem?_put_of_ne here]
        exact holds
  | jumped running current named =>
      rw [storing?_eq_none index running current (Instruction.isStore_of_target? named)]
      exact holds
  | entered running current =>
      rw [storing?_eq_none index running current rfl, ValueStack.getElem?_pushWindow_of_lt onStack]
      exact holds
  | returned running current read site =>
      rw [storing?_eq_none index running current rfl]
      rw [running] at active above
      have resumed := active.pop (by simpa [depth] using deeper)
      have below := above.1 resumed.length_lt
      rw [ValueStack.getElem?_put_of_ne (resumed.ne_of_dest above.2 spares site rfl),
        ValueStack.getElem?_truncate_of_lt below]
      exact holds

/-- As long as the activation lasts, the place stays shielded and holds what was stored there last,
or what it held before. -/
theorem run {count : Nat} {content : Value} (shields : Shields function bottom outer index machine)
    (spares : function.Spares bottom index) (ran : run env count machine = (.running, next))
    (lasting : ∀ i between, i ≤ count → Machine.run env i machine = (.running, between) →
      outer.length < between.depth)
    (holds : machine.stack.values[index]? = some content) :
    Shields function bottom outer index next ∧
      next.stack.values[index]? = some ((storesTo env index count machine).getLastD content) := by
  induction count generalizing machine content with
  | zero =>
      cases ran
      exact ⟨shields, holds⟩
  | succ count ih =>
      obtain ⟨first, taken, ran⟩ := run_succ_eq_running.mp ran
      have progress := progress_of_step taken
      have deeper : first.depth ≠ outer.length := by
        have early := lasting 1 first (by omega) (run_succ_eq_running.mpr ⟨first, taken, rfl⟩)
        omega
      have later : ∀ i between, i ≤ count → Machine.run env i first = (.running, between) →
          outer.length < between.depth := by
        intro i between early reached
        exact lasting (i + 1) between (by omega) (run_succ_eq_running.mpr ⟨first, taken, reached⟩)
      obtain ⟨still, content⟩ := ih (shields.progress progress deeper) ran later
        (shields.getElem?_progress spares progress deeper holds)
      refine ⟨still, content.trans (congrArg some ?_)⟩
      simp only [storesTo, taken]
      cases machine.storing? index with
      | none => simp
      | some value => simp [List.getLast?_cons]

end Shields
end Machine
end RegisterMachine
