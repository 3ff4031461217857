import RegisterMachine.Assembly.Definition
import RegisterMachine.Machine.Step

/-!
What the reading half of a step can give.

`Planned` lists the actions that an instruction can turn into and `Refusal` the faults that reading
its operands can end in, each with the facts the reader established on the way.
-/
set_option autoImplicit false

namespace RegisterMachine

/-! ## Computations that can fail -/

theorem ok_bind {α β ε : Type} (value : α) (next : α → Except ε β) :
    Except.ok value >>= next = next value :=
  rfl

theorem bind_eq_ok {α β ε : Type} {first : Except ε α} {next : α → Except ε β} {result : β}
    (success : first >>= next = .ok result) :
    ∃ value, first = .ok value ∧ next value = .ok result := by
  cases first with
  | error error => cases success
  | ok value => exact ⟨value, rfl, success⟩

theorem bind_eq_error {α β ε : Type} {first : Except ε α} {next : α → Except ε β} {error : ε}
    (failure : first >>= next = .error error) :
    first = .error error ∨ ∃ value, first = .ok value ∧ next value = .error error := by
  cases first with
  | error found =>
      cases failure
      exact .inl rfl
  | ok value => exact .inr ⟨value, rfl, failure⟩

theorem mapM_eq_error {α β ε : Type} {read : α → Except ε β} {error : ε} {items : List α}
    (failure : items.mapM read = .error error) : ∃ item ∈ items, read item = .error error := by
  induction items with
  | nil => cases failure
  | cons item rest ih =>
      rw [List.mapM_cons] at failure
      rcases bind_eq_error failure with first | ⟨value, -, failure⟩
      · exact ⟨item, by simp, first⟩
      · rcases bind_eq_error failure with later | ⟨values, -, failure⟩
        · obtain ⟨culprit, member, refused⟩ := ih later
          exact ⟨culprit, by simp [member], refused⟩
        · cases failure

theorem length_of_mapM_eq_ok {α β ε : Type} {read : α → Except ε β} {items : List α}
    {values : List β} (success : items.mapM read = .ok values) : values.length = items.length := by
  induction items generalizing values with
  | nil =>
      cases success
      rfl
  | cons item rest ih =>
      rw [List.mapM_cons] at success
      obtain ⟨value, -, success⟩ := bind_eq_ok success
      obtain ⟨others, read, success⟩ := bind_eq_ok success
      cases success
      simp [ih read]

/-! ## The value stack -/

namespace ValueStack

@[simp] theorem size_put (stack : ValueStack) (index : Nat) (value : Value) :
    (stack.put index value).size = stack.size := by
  simp [put, size]

@[simp] theorem size_push (stack : ValueStack) (value : Value) :
    (stack.push value).size = stack.size + 1 := by
  simp [push, size]

theorem toList_pushWindow (stack : ValueStack) (args : List Value) (numLocals : Nat) :
    (stack.pushWindow args numLocals).values.toList =
      stack.values.toList ++ args ++ List.replicate numLocals .undefined := by
  simp [pushWindow, grow]

@[simp] theorem size_pushWindow (stack : ValueStack) (args : List Value) (numLocals : Nat) :
    (stack.pushWindow args numLocals).size = stack.size + args.length + numLocals := by
  simp only [size, ← Array.length_toList, toList_pushWindow, List.length_append,
    List.length_replicate]

@[simp] theorem size_truncate (stack : ValueStack) (length : Nat) :
    (stack.truncate length).size = min length stack.size := by
  simp [truncate, size]

theorem getElem?_put_of_ne {stack : ValueStack} {index other : Nat} {value : Value}
    (different : index ≠ other) : (stack.put index value).values[other]? = stack.values[other]? := by
  simp [put, different]

theorem getElem?_put_self {stack : ValueStack} {index : Nat} {value : Value}
    (inside : index < stack.size) : (stack.put index value).values[index]? = some value := by
  exact Array.getElem?_setIfInBounds_self_of_lt inside

theorem getElem?_push_of_lt {stack : ValueStack} {index : Nat} {value : Value}
    (inside : index < stack.size) : (stack.push value).values[index]? = stack.values[index]? := by
  simp only [push, Array.getElem?_push]
  exact if_neg (Nat.ne_of_lt inside)

theorem getElem?_pushWindow_of_lt {stack : ValueStack} {index numLocals : Nat}
    {args : List Value} (inside : index < stack.size) :
    (stack.pushWindow args numLocals).values[index]? = stack.values[index]? := by
  rw [← Array.getElem?_toList, toList_pushWindow, List.append_assoc,
    List.getElem?_append_left (by simpa [size] using inside), Array.getElem?_toList]

theorem getElem?_truncate_of_lt {stack : ValueStack} {index length : Nat}
    (inside : index < length) :
    (stack.truncate length).values[index]? = stack.values[index]? := by
  simp only [truncate, Array.shrink_eq_take, Array.getElem?_extract]
  split
  · simp
  · rw [Array.getElem?_eq_none (by omega)]

theorem get_eq_error {stack : ValueStack} {index : Nat} {fault : Fault}
    (failure : stack.get index = .error fault) :
    stack.size ≤ index ∧ fault = .indexOutOfRange index stack.size := by
  unfold get at failure
  cases found : stack.values[index]? with
  | some value => simp [found] at failure
  | none =>
      simp only [found, Except.error.injEq] at failure
      exact ⟨by simpa [size] using found, failure.symm⟩

/-- An address that is accepted lies on the stack. -/
theorem address_lt_of_cell {stack : ValueStack} {address : Value} {cell : Cell}
    (accepted : stack.cell address = .ok cell) : cell.address < stack.size := by
  unfold ValueStack.cell at accepted
  split at accepted
  · split at accepted
    · cases accepted
      simp only
      omega
    · cases accepted
  · cases accepted

theorem cell_eq_error {stack : ValueStack} {address : Value} {fault : Fault}
    (refused : stack.cell address = .error fault) :
    (∃ expected found, fault = .typeMismatch expected found) ∨
      ∃ number, fault = .invalidCell number stack.size := by
  unfold ValueStack.cell at refused
  split at refused
  · split at refused
    · cases refused
    · cases refused
      exact .inr ⟨_, rfl⟩
  · cases refused
    exact .inl ⟨_, _, rfl⟩

end ValueStack

/-! ## Slots -/

namespace Instruction

variable {instruction : Instruction} {slot : Slot}

theorem dest_mem_frameSlots (target : instruction.dest? = some slot) :
    slot ∈ instruction.frameSlots := by
  simp [frameSlots, target]

theorem x_mem_frameSlots (operand : instruction.x? = some slot) :
    slot ∈ instruction.frameSlots := by
  simp [frameSlots, operand]

theorem y_mem_frameSlots (operand : instruction.y? = some slot) :
    slot ∈ instruction.frameSlots := by
  simp [frameSlots, operand]

theorem arg_mem_frameSlots {dest callee : Slot} {args : List Slot} (passed : slot ∈ args) :
    slot ∈ (execute dest callee args).frameSlots := by
  simp [frameSlots, passed]

end Instruction

namespace Frame

theorem place_eq_ok {frame : Frame} {stack : ValueStack} {slot index : Nat}
    (placed : frame.place stack slot = .ok index) :
    frame.bottom + slot < stack.size ∧ index = frame.bottom + slot := by
  unfold place at placed
  split at placed
  · cases placed
    exact ⟨‹_›, rfl⟩
  · cases placed

theorem place_eq_error {frame : Frame} {stack : ValueStack} {slot : Nat} {fault : Fault}
    (refused : frame.place stack slot = .error fault) :
    stack.size ≤ frame.bottom + slot ∧ fault = .slotOutOfRange slot frame.bottom stack.size := by
  unfold place at refused
  split at refused
  · cases refused
  · cases refused
    exact ⟨Nat.le_of_not_lt ‹_›, rfl⟩

theorem read_eq_error {frame : Frame} {stack : ValueStack} {slot : Nat} {fault : Fault}
    (refused : frame.read stack slot = .error fault) :
    stack.size ≤ frame.bottom + slot ∧ fault = .slotOutOfRange slot frame.bottom stack.size := by
  rcases bind_eq_error refused with refused | ⟨index, placed, refused⟩
  · exact place_eq_error refused
  · obtain ⟨inside, rfl⟩ := place_eq_ok placed
    have outside := (ValueStack.get_eq_error refused).1
    omega

end Frame

theorem Numeric.require_eq_error {kind : Numeric} {value : Value} {fault : Fault}
    (refused : kind.require value = .error fault) :
    ∃ expected found, fault = .typeMismatch expected found := by
  unfold Numeric.require at refused
  split at refused <;> cases refused <;> exact ⟨_, _, rfl⟩

theorem Numeric.require_eq_ok {kind : Numeric} {value required : Value}
    (passed : kind.require value = .ok required) : required = value := by
  unfold Numeric.require at passed
  split at passed <;> cases passed <;> rfl

theorem Access.require_eq_ok {access : Access} {value required : Value}
    (passed : access.require value = .ok required) : required = value := by
  cases access with
  | any =>
      cases passed
      rfl
  | only kind => exact Numeric.require_eq_ok passed

theorem Access.require_eq_error {access : Access} {value : Value} {fault : Fault}
    (refused : access.require value = .error fault) :
    ∃ expected found, fault = .typeMismatch expected found := by
  cases access with
  | any => cases refused
  | only kind => exact Numeric.require_eq_error refused

namespace Frame

theorem readInt32_eq_error {frame : Frame} {stack : ValueStack} {slot : Slot} {fault : Fault}
    (refused : frame.readInt32 stack slot = .error fault) :
    (stack.size ≤ frame.bottom + slot.toNat ∧
        fault = .slotOutOfRange slot.toNat frame.bottom stack.size) ∨
      ∃ expected found, fault = .typeMismatch expected found := by
  rcases bind_eq_error refused with refused | ⟨value, -, refused⟩
  · exact .inl (read_eq_error refused)
  · cases value <;> cases refused <;> exact .inr ⟨_, _, rfl⟩

theorem readCell_eq_error {frame : Frame} {stack : ValueStack} {slot : Slot} {fault : Fault}
    (refused : frame.readCell stack slot = .error fault) :
    (stack.size ≤ frame.bottom + slot.toNat ∧
        fault = .slotOutOfRange slot.toNat frame.bottom stack.size) ∨
      (∃ expected found, fault = .typeMismatch expected found) ∨
      ∃ number, fault = .invalidCell number stack.size := by
  rcases bind_eq_error refused with refused | ⟨value, -, refused⟩
  · exact .inl (read_eq_error refused)
  · exact .inr (ValueStack.cell_eq_error refused)

theorem address_lt_of_readCell {frame : Frame} {stack : ValueStack} {slot : Slot} {cell : Cell}
    (success : frame.readCell stack slot = .ok cell) : cell.address < stack.size := by
  obtain ⟨value, -, accepted⟩ := bind_eq_ok success
  exact ValueStack.address_lt_of_cell accepted

theorem readCallback_eq_error {frame : Frame} {stack : ValueStack} {slot : Slot} {fault : Fault}
    (refused : frame.readCallback stack slot = .error fault) :
    (stack.size ≤ frame.bottom + slot.toNat ∧
        fault = .slotOutOfRange slot.toNat frame.bottom stack.size) ∨
      ∃ expected found, fault = .typeMismatch expected found := by
  rcases bind_eq_error refused with refused | ⟨value, -, refused⟩
  · exact .inl (read_eq_error refused)
  · cases id : value.callback? with
    | some number => simp [id] at refused
    | none =>
        simp only [id, Except.error.injEq] at refused
        exact .inr ⟨_, _, refused.symm⟩

end Frame

/-! ## Actions -/

/-- The action an instruction turns into, with what its operands were found to be. -/
inductive Planned (env : Environment) (machine : Machine) (frame : Frame) :
    Instruction → Action → Prop
  | assign {instruction : Instruction} {dest : Slot} {value : Value}
      (target : instruction.dest? = some dest) (callee : instruction.callee? = none) :
      Planned env machine frame instruction (.assign dest value)
  | allocate {access : Access} {dest : Slot} :
      Planned env machine frame (.allocate access dest) (.allocate dest)
  | store {access : Access} {x y : Slot} {cell : Cell} {value : Value}
      (addressed : frame.readCell machine.stack x = .ok cell)
      (read : frame.read machine.stack y.toNat = .ok value) :
      Planned env machine frame (.store access x y) (.store cell value)
  | jump {target : UInt16} : Planned env machine frame (.jump target) (.goTo target.toNat)
  | branch {x : Slot} {target : UInt16} {pc : Nat}
      (choice : pc = frame.pc + 1 ∨ pc = target.toNat) :
      Planned env machine frame (.branch x target) (.goTo pc)
  | enter {dest : Slot} {callee : FuncId} {args : List Slot} {function : Function}
      {values : List Value}
      (found : frame.function.callee? callee = some function)
      (arity : args.length = function.argCount.toNat)
      (shallow : env.limits.checkDepth machine.frames = .ok ())
      (read : args.mapM (fun index => machine.stack.get index.toNat) = .ok values) :
      Planned env machine frame (.call dest callee args) (.enter function values)
  | leave {x : Slot} {value : Value} (read : frame.read machine.stack x.toNat = .ok value) :
      Planned env machine frame (.leave x) (.leave value)
  | accept {dest callee : Slot} {args : List Slot} {reply : Reply} :
      Planned env machine frame (.execute dest callee args) (.accept dest reply)

/-- Why an instruction is refused before it has changed anything. -/
inductive Refusal (env : Environment) (machine : Machine) (frame : Frame) :
    Instruction → Fault → Prop
  | slot {instruction : Instruction} {slot : Slot} (mentioned : slot ∈ instruction.frameSlots)
      (outside : machine.stack.size ≤ frame.bottom + slot.toNat) :
      Refusal env machine frame instruction
        (.slotOutOfRange slot.toNat frame.bottom machine.stack.size)
  | kind {instruction : Instruction} {expected : Expectation} {found : Kind} :
      Refusal env machine frame instruction (.typeMismatch expected found)
  | cell {instruction : Instruction} {address : Int} :
      Refusal env machine frame instruction (.invalidCell address machine.stack.size)
  | callee {dest : Slot} {callee : FuncId} {args : List Slot}
      (missing : frame.function.callee? callee = none) :
      Refusal env machine frame (.call dest callee args) (.unknownFunction callee)
  | arity {dest : Slot} {callee : FuncId} {args : List Slot} {function : Function}
      (found : frame.function.callee? callee = some function)
      (differs : args.length ≠ function.argCount.toNat) :
      Refusal env machine frame (.call dest callee args)
        (.argumentCount function.argCount.toNat args.length)
  | depth {dest : Slot} {callee : FuncId} {args : List Slot} {limit : Nat}
      (bounded : env.limits.maxCallDepth = some limit) (deep : limit ≤ machine.frames.length) :
      Refusal env machine frame (.call dest callee args) (.callDepthExceeded limit)
  | argument {dest : Slot} {callee : FuncId} {args : List Slot} {index : Slot}
      (passed : index ∈ args) (outside : machine.stack.size ≤ index.toNat) :
      Refusal env machine frame (.call dest callee args)
        (.indexOutOfRange index.toNat machine.stack.size)
  | callback {dest callee : Slot} {args : List Slot} {word : UInt64} :
      Refusal env machine frame (.execute dest callee args) (.unknownCallback word)

namespace Environment

theorem planned_of_planCall {env : Environment} {machine : Machine} {frame : Frame} {dest : Slot}
    {callee : FuncId} {args : List Slot} {action : Action}
    (planned : env.planCall machine frame callee args = .ok action) :
    Planned env machine frame (.call dest callee args) action := by
  unfold planCall at planned
  split at planned
  · cases planned
  · split at planned
    · cases planned
    · obtain ⟨⟨⟩, shallow, planned⟩ := bind_eq_ok planned
      obtain ⟨values, read, planned⟩ := bind_eq_ok planned
      cases planned
      exact .enter ‹_› (Decidable.not_not.mp ‹_›) shallow read

theorem planned_of_planExecute {env : Environment} {machine : Machine} {frame : Frame}
    {dest callee : Slot} {args : List Slot} {action : Action}
    (planned : env.planExecute machine frame dest callee args = .ok action) :
    Planned env machine frame (.execute dest callee args) action := by
  obtain ⟨id, -, planned⟩ := bind_eq_ok planned
  split at planned
  · cases planned
  · obtain ⟨values, -, planned⟩ := bind_eq_ok planned
    obtain ⟨reply, -, planned⟩ := bind_eq_ok planned
    cases planned
    exact .accept

theorem planned_of_plan {env : Environment} {machine : Machine} {frame : Frame}
    {instruction : Instruction} {action : Action}
    (planned : env.plan machine frame instruction = .ok action) :
    Planned env machine frame instruction action := by
  cases instruction with
  | allocate access dest =>
      cases planned
      exact .allocate
  | store access x y =>
      obtain ⟨cell, addressed, planned⟩ := bind_eq_ok planned
      obtain ⟨value, read, planned⟩ := bind_eq_ok planned
      obtain ⟨required, passed, planned⟩ := bind_eq_ok planned
      cases planned
      cases Access.require_eq_ok passed
      exact .store addressed read
  | load access dest x =>
      obtain ⟨cell, -, planned⟩ := bind_eq_ok planned
      obtain ⟨value, -, planned⟩ := bind_eq_ok planned
      obtain ⟨required, -, planned⟩ := bind_eq_ok planned
      cases planned
      exact .assign rfl rfl
  | equal dest x y | add dest x y =>
      obtain ⟨a, -, planned⟩ := bind_eq_ok planned
      obtain ⟨b, -, planned⟩ := bind_eq_ok planned
      cases planned
      exact .assign rfl rfl
  | constant dest value | constantInt32 dest value | constantDouble dest value =>
      cases planned
      exact .assign rfl rfl
  | extract kind dest x =>
      obtain ⟨value, -, planned⟩ := bind_eq_ok planned
      obtain ⟨required, -, planned⟩ := bind_eq_ok planned
      cases planned
      exact .assign rfl rfl
  | jump target =>
      cases planned
      exact .jump
  | branch x target =>
      obtain ⟨condition, -, planned⟩ := bind_eq_ok planned
      cases planned
      by_cases zero : condition = 0
      · exact .branch (.inl (if_pos zero))
      · exact .branch (.inr (if_neg zero))
  | call dest callee args => exact planned_of_planCall planned
  | leave x =>
      obtain ⟨value, read, planned⟩ := bind_eq_ok planned
      cases planned
      exact .leave read
  | execute dest callee args => exact planned_of_planExecute planned

/-! ## Faults -/

variable {env : Environment} {machine : Machine} {frame : Frame} {instruction : Instruction}
  {fault : Fault}

theorem refusal_of_read {slot : Slot} (mentioned : slot ∈ instruction.frameSlots)
    (refused : frame.read machine.stack slot.toNat = .error fault) :
    Refusal env machine frame instruction fault := by
  obtain ⟨outside, rfl⟩ := Frame.read_eq_error refused
  exact .slot mentioned outside

theorem refusal_of_readInt32 {slot : Slot} (mentioned : slot ∈ instruction.frameSlots)
    (refused : frame.readInt32 machine.stack slot = .error fault) :
    Refusal env machine frame instruction fault := by
  rcases Frame.readInt32_eq_error refused with ⟨outside, rfl⟩ | ⟨expected, found, rfl⟩
  · exact .slot mentioned outside
  · exact .kind

theorem refusal_of_readCell {slot : Slot} (mentioned : slot ∈ instruction.frameSlots)
    (refused : frame.readCell machine.stack slot = .error fault) :
    Refusal env machine frame instruction fault := by
  rcases Frame.readCell_eq_error refused with
    ⟨outside, rfl⟩ | ⟨expected, found, rfl⟩ | ⟨number, rfl⟩
  · exact .slot mentioned outside
  · exact .kind
  · exact .cell

theorem refusal_of_planCall {dest : Slot} {callee : FuncId} {args : List Slot}
    (refused : env.planCall machine frame callee args = .error fault) :
    Refusal env machine frame (.call dest callee args) fault := by
  unfold planCall at refused
  split at refused
  · cases refused
    exact .callee ‹_›
  · split at refused
    · cases refused
      exact .arity ‹_› ‹_›
    · rcases bind_eq_error refused with refused | ⟨⟨⟩, -, refused⟩
      · unfold Limits.checkDepth at refused
        split at refused
        · split at refused
          · cases refused
          · cases refused
            exact .depth ‹_› (Nat.le_of_not_lt ‹_›)
        · cases refused
      · rcases bind_eq_error refused with refused | ⟨values, -, refused⟩
        · obtain ⟨index, passed, refused⟩ := mapM_eq_error refused
          obtain ⟨outside, rfl⟩ := ValueStack.get_eq_error refused
          exact .argument passed outside
        · cases refused

theorem refusal_of_planExecute {dest callee : Slot} {args : List Slot}
    (refused : env.planExecute machine frame dest callee args = .error fault) :
    Refusal env machine frame (.execute dest callee args) fault := by
  rcases bind_eq_error refused with refused | ⟨id, -, refused⟩
  · rcases Frame.readCallback_eq_error refused with ⟨outside, rfl⟩ | ⟨expected, found, rfl⟩
    · exact .slot (Instruction.x_mem_frameSlots rfl) outside
    · exact .kind
  · split at refused
    · cases refused
      exact .callback
    · rcases bind_eq_error refused with refused | ⟨values, -, refused⟩
      · obtain ⟨slot, passed, refused⟩ := mapM_eq_error refused
        exact refusal_of_read (Instruction.arg_mem_frameSlots passed) refused
      · rcases bind_eq_error refused with refused | ⟨reply, -, refused⟩
        · unfold Registry.invoke at refused
          split at refused
          · cases refused
          · cases refused
            exact .callback
        · cases refused

theorem refusal_of_plan (refused : env.plan machine frame instruction = .error fault) :
    Refusal env machine frame instruction fault := by
  cases instruction with
  | allocate access dest | jump target | constant dest value | constantInt32 dest value
  | constantDouble dest value => cases refused
  | store access x y =>
      rcases bind_eq_error refused with refused | ⟨cell, -, refused⟩
      · exact refusal_of_readCell (Instruction.x_mem_frameSlots rfl) refused
      · rcases bind_eq_error refused with refused | ⟨value, -, refused⟩
        · exact refusal_of_read (Instruction.y_mem_frameSlots rfl) refused
        · rcases bind_eq_error refused with refused | ⟨required, -, refused⟩
          · obtain ⟨expected, found, rfl⟩ := Access.require_eq_error refused
            exact .kind
          · cases refused
  | load access dest x =>
      rcases bind_eq_error refused with refused | ⟨cell, addressed, refused⟩
      · exact refusal_of_readCell (Instruction.x_mem_frameSlots rfl) refused
      · rcases bind_eq_error refused with refused | ⟨value, -, refused⟩
        · -- A cell that was accepted is on the stack.
          have inside := Frame.address_lt_of_readCell addressed
          have outside := (ValueStack.get_eq_error refused).1
          omega
        · rcases bind_eq_error refused with refused | ⟨required, -, refused⟩
          · obtain ⟨expected, found, rfl⟩ := Access.require_eq_error refused
            exact .kind
          · cases refused
  | equal dest x y | add dest x y =>
      rcases bind_eq_error refused with refused | ⟨a, -, refused⟩
      · exact refusal_of_readInt32 (Instruction.x_mem_frameSlots rfl) refused
      · rcases bind_eq_error refused with refused | ⟨b, -, refused⟩
        · exact refusal_of_readInt32 (Instruction.y_mem_frameSlots rfl) refused
        · cases refused
  | extract kind dest x =>
      rcases bind_eq_error refused with refused | ⟨value, -, refused⟩
      · exact refusal_of_read (Instruction.x_mem_frameSlots rfl) refused
      · rcases bind_eq_error refused with refused | ⟨required, -, refused⟩
        · obtain ⟨expected, found, rfl⟩ := Numeric.require_eq_error refused
          exact .kind
        · cases refused
  | branch x target =>
      rcases bind_eq_error refused with refused | ⟨condition, -, refused⟩
      · exact refusal_of_readInt32 (Instruction.x_mem_frameSlots rfl) refused
      · cases refused
  | call dest callee args => exact refusal_of_planCall refused
  | leave x =>
      rcases bind_eq_error refused with refused | ⟨value, -, refused⟩
      · exact refusal_of_read (Instruction.x_mem_frameSlots rfl) refused
      · cases refused
  | execute dest callee args => exact refusal_of_planExecute refused

end Environment
end RegisterMachine
