import RegisterMachine.Proofs.Machine.Progress

/-!
What invoking a callback comes to.

The value that refers to a callback holds its number in a word of 64 bits, while numbers of
callbacks have 32. A word within their range finds a callback or is reported as unknown. One beyond
it is not taken for a callback's number in the first place, and is reported as a value of the wrong
kind, though its kind is the right one.
-/
set_option autoImplicit false

namespace RegisterMachine

namespace Value

variable {value : Value} {word : UInt64}

theorem callback?_of_ne (other : ∀ word, value ≠ .tagged .nativeCallback word) :
    value.callback? = none := by
  cases value with
  | tagged tag word =>
      have differs : tag ≠ .nativeCallback := by
        rintro rfl
        exact other word rfl
      simp [callback?, word?, differs]
  | _ => rfl

theorem callback?_of_le (wide : UInt32.size ≤ word.toNat) :
    (tagged .nativeCallback word).callback? = none := by
  simp [callback?, word?, Nat.not_lt.mpr wide]

theorem callback?_of_lt (narrow : word.toNat < UInt32.size) :
    (tagged .nativeCallback word).callback? = some word.toUInt32 := by
  simp [callback?, word?, narrow]

end Value

theorem toNat_toUInt32_of_lt {word : UInt64} (narrow : word.toNat < UInt32.size) :
    word.toUInt32.toNat = word.toNat := by
  rw [UInt64.toNat_toUInt32]
  exact Nat.mod_eq_of_lt narrow

theorem toUInt64_toUInt32_of_lt {word : UInt64} (narrow : word.toNat < UInt32.size) :
    word.toUInt32.toUInt64 = word := by
  apply UInt64.toNat_inj.mp
  rw [UInt32.toNat_toUInt64, toNat_toUInt32_of_lt narrow]

namespace Frame

variable {frame : Frame} {stack : ValueStack} {value : Value}

theorem read_of_getElem? {slot : Nat} (held : stack.values[frame.bottom + slot]? = some value) :
    frame.read stack slot = .ok value := by
  have inside : frame.bottom + slot < stack.size := (Array.getElem?_eq_some_iff.mp held).1
  have placed : frame.place stack slot = .ok (frame.bottom + slot) := if_pos inside
  rw [read, placed]
  change stack.get (frame.bottom + slot) = .ok value
  simp only [ValueStack.get, held]

theorem mapM_read {slots : List Slot} {values : List Value}
    (held : slots.map (fun slot => stack.values[frame.bottom + slot.toNat]?) = values.map some) :
    slots.mapM (fun slot => frame.read stack slot.toNat) = .ok values := by
  induction slots generalizing values with
  | nil =>
      cases values with
      | nil => rfl
      | cons value rest => cases held
  | cons slot slots ih =>
      cases values with
      | nil => cases held
      | cons value values =>
          obtain ⟨here, later⟩ := List.cons.inj held
          rw [List.mapM_cons, read_of_getElem? here, ih later]
          rfl

theorem readCallback_of_some {slot : Slot} {id : UInt32}
    (held : frame.read stack slot.toNat = .ok value) (numbered : value.callback? = some id) :
    frame.readCallback stack slot = .ok id := by
  rw [readCallback, held, ok_bind]
  simp only [numbered]

theorem readCallback_of_none {slot : Slot} (held : frame.read stack slot.toNat = .ok value)
    (unnumbered : value.callback? = none) :
    frame.readCallback stack slot = .error (.typeMismatch .nativeCallback value.kind) := by
  rw [readCallback, held, ok_bind]
  simp only [unnumbered]

end Frame

namespace Environment

/-- The callback registered under this number; none if there is no registry. -/
def registered? (env : Environment) (word : UInt64) : Option Callback :=
  env.host.bind fun registry => (registry.callbacks[word.toNat]?).map (·.2)

section

variable {env : Environment} {machine : Machine} {frame : Frame} {dest callee : Slot}
  {args : List Slot}

theorem planExecute_of_none {value : Value}
    (held : frame.read machine.stack callee.toNat = .ok value)
    (unnumbered : value.callback? = none) :
    env.planExecute machine frame dest callee args =
      .error (.typeMismatch .nativeCallback value.kind) := by
  rw [planExecute, Frame.readCallback_of_none held unnumbered]
  rfl

variable {values : List Value} {word : UInt64}

theorem registered?_of_host {registry : Registry} (hosted : env.host = some registry)
    (narrow : word.toNat < UInt32.size) :
    env.registered? word = registry.get? word.toUInt32 := by
  rw [registered?, hosted, Registry.get?, toNat_toUInt32_of_lt narrow]
  rfl

-- Whether there is a registry is known before the arguments are read, and whether it has the
-- callback only afterwards.
theorem planExecute_of_unregistered
    (held : frame.read machine.stack callee.toNat = .ok (.tagged .nativeCallback word))
    (given : args.mapM (fun slot => frame.read machine.stack slot.toNat) = .ok values)
    (narrow : word.toNat < UInt32.size) (unregistered : env.registered? word = none) :
    env.planExecute machine frame dest callee args = .error (.unknownCallback word) := by
  rw [planExecute, Frame.readCallback_of_some held (Value.callback?_of_lt narrow), ok_bind]
  cases hosted : env.host with
  | none => simp only [toUInt64_toUInt32_of_lt narrow]
  | some registry =>
      rw [registered?_of_host hosted narrow] at unregistered
      simp only [given, ok_bind, Registry.invoke, unregistered, toUInt64_toUInt32_of_lt narrow]
      rfl

theorem planExecute_of_registered {callback : Callback}
    (held : frame.read machine.stack callee.toNat = .ok (.tagged .nativeCallback word))
    (given : args.mapM (fun slot => frame.read machine.stack slot.toNat) = .ok values)
    (narrow : word.toNat < UInt32.size) (registered : env.registered? word = some callback) :
    env.planExecute machine frame dest callee args =
      .ok (.accept dest (callback ⟨values, env.globals⟩)) := by
  rw [planExecute, Frame.readCallback_of_some held (Value.callback?_of_lt narrow), ok_bind]
  cases hosted : env.host with
  | none =>
      rw [registered?, hosted] at registered
      cases registered
  | some registry =>
      rw [registered?_of_host hosted narrow] at registered
      simp only [given, ok_bind, Registry.invoke, registered]
      rfl

end

end Environment

namespace Machine

/-- What a step does that invokes a callback, if its slots are there. A value of another kind is
refused as such. So is a word beyond the numbers of callbacks. Any other word is reported as
unknown, if no callback has this number; else the callback is invoked with the values of the
argument slots. The failures leave everything as it was but the count of steps. -/
theorem execute_outcome_exact {env : Environment} {machine : Machine} {frame : Frame}
    {callers : List Frame} {dest callee : Slot} {args : List Slot} {value : Value}
    {values : List Value} (allowed : env.limits.checkSteps (machine.steps + 1) = .ok ())
    (running : machine.frames = frame :: callers)
    (current : frame.instruction = .ok (.execute dest callee args))
    (held : machine.stack.values[frame.bottom + callee.toNat]? = some value)
    (given : args.map (fun slot => machine.stack.values[frame.bottom + slot.toNat]?) =
      values.map some) :
    ((∀ word, value ≠ .tagged .nativeCallback word) →
      machine.step env =
        (.faulted (.typeMismatch .nativeCallback value.kind), machine.counted)) ∧
    ∀ word, value = .tagged .nativeCallback word →
      (UInt32.size ≤ word.toNat →
        machine.step env =
          (.faulted (.typeMismatch .nativeCallback .nativeCallback), machine.counted)) ∧
      (word.toNat < UInt32.size → env.registered? word = none →
        machine.step env = (.faulted (.unknownCallback word), machine.counted)) ∧
      ∀ callback, word.toNat < UInt32.size → env.registered? word = some callback →
        machine.step env = machine.counted.perform env.limits frame
          (.accept dest (callback ⟨values, env.globals⟩)) := by
  have held : frame.read machine.counted.stack callee.toNat = .ok value :=
    Frame.read_of_getElem? held
  have given : args.mapM (fun slot => frame.read machine.counted.stack slot.toNat) = .ok values :=
    Frame.mapM_read given
  rw [step_at allowed running current, Environment.plan]
  constructor
  · intro other
    rw [Environment.planExecute_of_none held (Value.callback?_of_ne other)]
  · rintro word rfl
    refine ⟨?_, ?_, ?_⟩
    · intro wide
      rw [Environment.planExecute_of_none held (Value.callback?_of_le wide)]
      rfl
    · intro narrow unregistered
      rw [Environment.planExecute_of_unregistered held given narrow unregistered]
    · intro callback narrow registered
      rw [Environment.planExecute_of_registered held given narrow registered]

/-- A machine about to invoke what `value` refers to, with `value` as the only argument. -/
def invoking (value : Value) : Machine :=
  (Machine.idle.interpret ⟨.unlimited, none, none⟩ 1
    (.single ⟨0, 0⟩ [.constant 0 value, .execute 1 0 [0], .leave 1] 0 2) []).2

/-- A registry whose only callback answers with its first argument. -/
def echoing : Registry :=
  ⟨[("echo", fun invocation => ⟨invocation.args.headD .undefined, []⟩)], Registry.capacity⟩

theorem execute_outcome_exact_invoking :
    ((invoking (.int32 0)).step ⟨.unlimited, some echoing, none⟩).1 =
        .faulted (.typeMismatch .nativeCallback .int32) ∧
      ((invoking (.ofCallback 1)).step ⟨.unlimited, some echoing, none⟩).1 =
        .faulted (.unknownCallback 1) ∧
      ((invoking (.ofCallback 0)).step ⟨.unlimited, none, none⟩).1 =
        .faulted (.unknownCallback 0) ∧
      ((invoking (.ofCallback 0)).step ⟨.unlimited, some echoing, none⟩).2.stack.values[1]? =
        some (.ofCallback 0) := by
  have outcome := fun value host => @execute_outcome_exact ⟨.unlimited, host, none⟩
    (invoking value) _ _ 1 0 [0] value [value] rfl rfl rfl rfl rfl
  have unknown := ((outcome (.ofCallback 1) (some echoing)).2 1 rfl).2.1 (by decide) rfl
  have absent := ((outcome (.ofCallback 0) none).2 0 rfl).2.1 (by decide) rfl
  have invoked := ((outcome (.ofCallback 0) (some echoing)).2 0 rfl).2.2 _ (by decide) rfl
  refine ⟨?_, ?_, ?_, ?_⟩
  · rw [(outcome (.int32 0) (some echoing)).1 (by simp)]
    rfl
  · rw [unknown]
  · rw [absent]
  · rw [invoked]
    rfl

/-- A word beyond the numbers of callbacks is not reported as unknown. -/
theorem execute_mistakes_wide_word :
    ¬ ∀ (env : Environment) (machine : Machine) (frame : Frame) (callers : List Frame)
      (dest callee : Slot) (args : List Slot) (word : UInt64) (values : List Value),
      env.limits.checkSteps (machine.steps + 1) = .ok () →
      machine.frames = frame :: callers →
      frame.instruction = .ok (.execute dest callee args) →
      machine.stack.values[frame.bottom + callee.toNat]? = some (.tagged .nativeCallback word) →
      args.map (fun slot => machine.stack.values[frame.bottom + slot.toNat]?) = values.map some →
      env.registered? word = none →
      (machine.step env).1 = .faulted (.unknownCallback word) := by
  intro reported
  have wrong := reported ⟨.unlimited, none, none⟩
    (invoking (.tagged .nativeCallback 0x100000000)) _ _ 1 0 [0] 0x100000000
    [.tagged .nativeCallback 0x100000000] rfl rfl rfl rfl rfl rfl
  exact absurd wrong (by decide)

end Machine
end RegisterMachine
