import RegisterMachine.Proofs.Machine.Ownership

/-!
Cells as private memory.

A cell that is allocated stands above the slots of the frame that runs and below those of every frame
entered later. If all code keeps to the slots of its own frames, nothing but stores through the
cell's address reaches it until the frame that allocated it returns.
-/
set_option autoImplicit false

namespace RegisterMachine

/-! ## Addresses -/

theorem ValueStack.cell_toValue {stack : ValueStack} {address : Nat}
    (addressable : address < 0x80000000) (onStack : address < stack.size) :
    stack.cell (Cell.toValue ⟨address⟩) = .ok ⟨address⟩ := by
  have number : (Int32.ofNat address).toInt = address := Int32.toInt_ofNat_of_lt addressable
  simp only [cell, Cell.toValue, number]
  rw [if_pos ⟨by omega, by omega⟩]
  rfl

theorem Cell.toValue_ne {a b : Nat} (left : a < 0x80000000) (right : b < 0x80000000)
    (differs : a ≠ b) : Cell.toValue ⟨a⟩ ≠ Cell.toValue ⟨b⟩ := by
  intro same
  have numbers := congrArg Int32.toInt (Value.int32.inj same)
  rw [Int32.toInt_ofNat_of_lt left, Int32.toInt_ofNat_of_lt right] at numbers
  omega

theorem ValueStack.getElem?_push_self (stack : ValueStack) (value : Value) :
    (stack.push value).values[stack.size]? = some value := by
  simp [push, size]

/-! ## Windows -/

/-- All slots that the code mentions belong to the function's activations. -/
def Definition.KeepsToSlots (definition : Definition) : Prop :=
  ∀ instruction ∈ definition.code, ∀ slot ∈ instruction.frameSlots,
    slot.toNat < definition.frameSize

theorem Function.spares_of_keepsToSlots {function : Function} {bottom index : Nat}
    (keeps : function.definition.KeepsToSlots) (outside : bottom + function.frameSize ≤ index) :
    function.Spares bottom index := by
  intro instruction member dest target
  have inside := keeps instruction member dest (Instruction.dest_mem_frameSlots target)
  have same : function.definition.frameSize = function.frameSize := rfl
  omega

theorem Activations.below_running {frame : Frame} {rest : List Frame}
    (activations : Activations (frame :: rest)) :
    ∀ waiting ∈ rest, waiting.bottom + waiting.function.frameSize ≤ frame.bottom := by
  induction rest generalizing frame with
  | nil => simp
  | cons caller rest ih =>
      intro waiting member
      cases activations with
      | nested called inCode outer =>
          have above := called.above
          rcases List.mem_cons.mp member with rfl | member
          · exact above
          · have below := ih outer waiting member
            omega

theorem Active.outside_windows {function : Function} {bottom index : Nat}
    {outer frames : List Frame} (active : Active function bottom outer frames)
    (above : BeginAbove index outer.length frames) (own : bottom + function.frameSize ≤ index)
    (below : ∀ frame ∈ outer, frame.bottom + frame.function.frameSize ≤ index) :
    ∀ frame ∈ frames,
      index < frame.bottom ∨ frame.bottom + frame.function.frameSize ≤ index := by
  induction active with
  | running sameFunction sameBottom =>
      intro frame member
      rcases List.mem_cons.mp member with rfl | member
      · subst sameFunction sameBottom
        exact .inr own
      · exact .inr (below frame member)
  | waiting _ later ih =>
      intro frame member
      rcases List.mem_cons.mp member with rfl | member
      · exact .inl (above.1 later.length_lt)
      · exact ih above.2 frame member

namespace Machine

/-! ## Allocating and loading -/

section Steps

variable {env : Environment} {machine next : Machine} {frame : Frame} {callers : List Frame}
  {access : Access} {dest : Slot}

theorem allocated_of_step (taken : machine.step env = (.running, next))
    (running : machine.frames = frame :: callers)
    (current : frame.instruction = .ok (.allocate access dest)) :
    machine.stack.size < 0x80000000 ∧ frame.bottom + dest.toNat < machine.stack.size + 1 ∧
      next.stack = (machine.stack.push .undefined).put (frame.bottom + dest.toNat)
        (Cell.toValue ⟨machine.stack.size⟩) ∧
      next.frames = { frame with pc := frame.pc + 1 } :: callers := by
  obtain ⟨action, planned, performed⟩ := performed_of_step taken running current
  cases planned
  obtain ⟨addressable, -, inside, -, rfl⟩ := allocate_eq_running performed running
  exact ⟨addressable, inside, rfl, rfl⟩

/-- What an allocation puts into its destination is the address of the new cell. -/
theorem address_of_step (taken : machine.step env = (.running, next))
    (running : machine.frames = frame :: callers)
    (current : frame.instruction = .ok (.allocate access dest)) :
    next.stack.values[frame.bottom + dest.toNat]? = some (Cell.toValue ⟨machine.stack.size⟩) := by
  obtain ⟨-, inside, stack, -⟩ := allocated_of_step taken running current
  rw [stack]
  apply ValueStack.getElem?_put_self
  rwa [ValueStack.size_push]

theorem loaded_of_step {x : Slot} {cell : Cell} (taken : machine.step env = (.running, next))
    (running : machine.frames = frame :: callers)
    (current : frame.instruction = .ok (.load access dest x))
    (addressed : frame.readCell machine.stack x = .ok cell) :
    next.stack.values[frame.bottom + dest.toNat]? = machine.stack.values[cell.address]? := by
  obtain ⟨action, planned, performed⟩ := performed_of_step taken running current
  obtain ⟨found, here, planned⟩ := bind_eq_ok planned
  obtain ⟨value, loaded, planned⟩ := bind_eq_ok planned
  obtain ⟨required, passed, planned⟩ := bind_eq_ok planned
  cases planned
  cases Access.require_eq_ok passed
  rw [stack_counted, addressed] at here
  cases here
  obtain ⟨inside, -, rfl⟩ := assign_eq_running performed running
  rw [ValueStack.getElem?_put_self inside]
  simp only [ValueStack.load, ValueStack.get, stack_counted] at loaded
  split at loaded
  · rename_i content holds
    cases loaded
    exact holds.symm
  · cases loaded

end Steps

/-! ## What an allocated cell holds -/

section Allocated

variable {env : Environment} {machine next : Machine} {frame : Frame} {outer : List Frame}
  {access : Access} {dest : Slot}

/-- A new cell is shielded by the activation that allocates it, and undefined. -/
theorem shields_of_allocated (consistent : machine.Consistent)
    (taken : machine.step env = (.running, next)) (running : machine.frames = frame :: outer)
    (current : frame.instruction = .ok (.allocate access dest))
    (slot : dest.toNat < frame.function.frameSize) :
    Shields frame.function frame.bottom outer machine.stack.size next ∧
      next.stack.values[machine.stack.size]? = some .undefined := by
  obtain ⟨-, -, stack, frames⟩ := allocated_of_step taken running current
  have window := consistent.window_running running
  have grown : next.stack.size = machine.stack.size + 1 := by
    rw [stack, ValueStack.size_put, ValueStack.size_push]
  refine ⟨⟨⟨?_, by omega⟩, by omega, ?_⟩, ?_⟩
  · rw [frames]
    exact .running rfl rfl
  · rw [frames]
    exact beginAbove_of_length_le (Nat.le_refl _)
  · rw [stack, ValueStack.getElem?_put_of_ne (by omega)]
    exact machine.stack.getElem?_push_self .undefined

end Allocated

/-- A cell that a frame allocates is private memory until that frame returns, if every function that
calls lead to keeps to the slots of its frames. The allocation hands out the cell's address. As long
as the frame lasts that address is accepted, lies among the slots of no frame and is handed out by
no other allocation, and loading through it gives the value that was stored through it last, or an
undefined one if there was no store. -/
theorem allocated_cell_private {function : Function}
    (keeps : ∀ id definition, function.module.Connected function.id id →
      function.module.get? id = some definition → definition.KeepsToSlots)
    (env : Environment) (before : Machine) (args : List Value) {first address : Nat}
    {allocating fresh : Machine} {owner : Frame} {outer : List Frame} {access : Access}
    {dest : Slot} (ran : before.interpret env first function args = (.running, allocating))
    (running : allocating.frames = owner :: outer)
    (current : owner.instruction = .ok (.allocate access dest))
    (allocated : allocating.step env = (.running, fresh))
    (top : allocating.stack.size = address) :
    fresh.stack.values[owner.bottom + dest.toNat]? = some (Cell.toValue ⟨address⟩) ∧
      ∀ count later, run env count fresh = (.running, later) →
        (∀ i between, i ≤ count → run env i fresh = (.running, between) →
          outer.length < between.depth) →
        later.stack.cell (Cell.toValue ⟨address⟩) = .ok ⟨address⟩ ∧
        (∀ frame ∈ later.frames,
          address < frame.bottom ∨ frame.bottom + frame.function.frameSize ≤ address) ∧
        (∀ frame callers access dest next, later.frames = frame :: callers →
          frame.instruction = .ok (.allocate access dest) → later.step env = (.running, next) →
          next.stack.values[frame.bottom + dest.toNat]? ≠ some (Cell.toValue ⟨address⟩)) ∧
        ∀ frame callers access dest x next, later.frames = frame :: callers →
          frame.instruction = .ok (.load access dest x) →
          frame.readCell later.stack x = .ok ⟨address⟩ → later.step env = (.running, next) →
          next.stack.values[frame.bottom + dest.toNat]? =
            some ((storesTo env address count fresh).getLastD .undefined) := by
  subst top
  have consistent := Consistent.of_interpret ran
  have window := consistent.window_running running
  have activations := consistent.activations
  rw [running] at activations
  have reaches := (RunsWithin.of_interpret ran).reaches_running running
  have contained : owner.function.definition.KeepsToSlots :=
    keeps _ _ reaches.connected (reaches.sameModule ▸ owner.function.get?_id)
  have slot : dest.toNat < owner.function.frameSize :=
    contained _ (Frame.mem_code_of_instruction current) dest (Instruction.dest_mem_frameSlots rfl)
  have addressable := (allocated_of_step allocated running current).1
  refine ⟨address_of_step allocated running current, ?_⟩
  intro count later reached lasting
  obtain ⟨shielded, undefined⟩ := shields_of_allocated consistent allocated running current slot
  obtain ⟨shields, holds⟩ := shielded.run (Function.spares_of_keepsToSlots contained window) reached
    lasting undefined
  have onStack := shields.onStack
  refine ⟨ValueStack.cell_toValue addressable onStack, ?_, ?_, ?_⟩
  · apply shields.inside.active.outside_windows shields.above window
    intro frame member
    have below := activations.below_running frame member
    omega
  · intro frame callers access dest next front here taken
    have fits := (allocated_of_step taken front here).1
    rw [address_of_step taken front here]
    intro same
    exact Cell.toValue_ne fits addressable (by omega) (Option.some.inj same)
  · intro frame callers access dest x next front here addressed taken
    rw [loaded_of_step taken front here addressed]
    exact holds

theorem keepsToSlots_poking {id : FuncId} {definition : Definition}
    (present : poking.module.get? id = some definition) : definition.KeepsToSlots :=
  (selfContained_poking present).slots

/-- The cell that `poking` allocates holds what `poke` has stored there when it is loaded. -/
theorem allocated_cell_private_poking :
    (pokingAfter 1).stack.values[0]? = some (Cell.toValue ⟨3⟩) ∧
      storesTo ⟨.unlimited, none, none⟩ 3 4 (pokingAfter 1) = [.int32 9] ∧
      (pokingAfter 6).stack.values[2]? = some (.int32 9) := by
  have keeps : ∀ id definition, poking.module.Connected poking.id id →
      poking.module.get? id = some definition → definition.KeepsToSlots :=
    fun id definition _ present => keepsToSlots_poking present
  have ran : Machine.idle.interpret ⟨.unlimited, none, none⟩ 0 poking [] =
      (.running, pokingAfter 0) := rfl
  have running : (pokingAfter 0).frames = [⟨0, poking, 0⟩] := rfl
  have current : Frame.instruction ⟨0, poking, 0⟩ = .ok (.allocate .any 0) := rfl
  have allocated : (pokingAfter 0).step ⟨.unlimited, none, none⟩ = (.running, pokingAfter 1) := rfl
  have top : (pokingAfter 0).stack.size = 3 := rfl
  obtain ⟨written, lasts⟩ := allocated_cell_private keeps ⟨.unlimited, none, none⟩ .idle [] ran
    running current allocated top
  have stores : storesTo ⟨.unlimited, none, none⟩ 3 4 (pokingAfter 1) = [.int32 9] := by decide
  have lasting : ∀ i between, i ≤ 4 →
      run ⟨.unlimited, none, none⟩ i (pokingAfter 1) = (.running, between) → 0 < between.depth := by
    intro i between early reached
    match i with
    | 0 | 1 | 2 | 3 | 4 =>
        cases reached
        decide
  obtain ⟨-, -, -, loads⟩ := lasts 4 (pokingAfter 5) rfl lasting
  have loaded := loads ⟨0, poking, 2⟩ [] .any 2 0 (pokingAfter 6) rfl rfl rfl rfl
  exact ⟨written, stores, by simpa [stores] using loaded⟩

end Machine
end RegisterMachine
