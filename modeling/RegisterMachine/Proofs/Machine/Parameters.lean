import RegisterMachine.Proofs.Machine.Ownership

/-!
Arguments of verified functions are read-only.

Every frame of a run was entered at some point of it. Verified code assigns no argument slot, so from
then on the arguments of the frame are what they were, but for stores that address them.
-/
set_option autoImplicit false

namespace RegisterMachine

theorem Function.spares_argument {function : Function} {k : Nat}
    (passed : function.module.check function.id = .ok ()) (argument : k < function.argCount.toNat)
    (bottom : Nat) : function.Spares bottom (bottom + k) := by
  intro instruction member dest target
  have lawful := Module.lawful_of_check passed function.get?_id
  have outside : function.argCount.toNat ≤ dest.toNat := lawful.locals instruction member dest target
  omega

namespace Machine

/-! ## Where frames come from -/

/-- A point of a run at which a frame has just been entered above the frames `outer`: the start, or
the machine to which the step after `count` others, a call, leads. -/
inductive Entry (env : Environment) (before : Machine) (function : Function) (args : List Value)
    (outer : List Frame) : Nat → Machine → Prop
  | start {entry : Machine} (started : before.start env.limits function args = (.running, entry))
      (outermost : outer = []) : Entry env before function args outer 0 entry
  | call {count : Nat} {caller entry : Machine}
      (ran : before.interpret env count function args = (.running, caller))
      (called : caller.step env = (.running, entry)) (below : caller.frames = outer) :
      Entry env before function args outer (count + 1) entry

section Entries

variable {env : Environment} {before machine next : Machine} {function : Function}
  {args : List Value} {frame : Frame} {outer : List Frame}

/-- A frame that is there after a step has just been entered, or was there before it. -/
theorem Progress.live (taken : Progress env machine next) (live : frame :: outer <:+ next.frames) :
    (next.frames = frame :: outer ∧ machine.frames = outer ∧ frame.pc = 0) ∨
      ∃ earlier, earlier :: outer <:+ machine.frames ∧ earlier.bottom = frame.bottom ∧
        earlier.function = frame.function := by
  cases taken with
  | assigned running | allocated running | stored running | jumped running =>
      right
      rw [running]
      rcases List.suffix_cons_iff.mp live with moved | waiting
      · cases moved
        exact ⟨_, List.suffix_refl _, rfl, rfl⟩
      · exact ⟨frame, waiting.trans (List.suffix_cons _ _), rfl, rfl⟩
  | entered running =>
      rw [running]
      rcases List.suffix_cons_iff.mp live with new | waiting
      · cases new
        exact .inl ⟨rfl, rfl, rfl⟩
      · exact .inr ⟨frame, waiting, rfl, rfl⟩
  | @returned inner caller rest x dest callee slots value running =>
      right
      rw [running]
      rcases List.suffix_cons_iff.mp live with resumed | waiting
      · cases resumed
        exact ⟨caller, List.suffix_cons _ _, rfl, rfl⟩
      · exact ⟨frame, (waiting.trans (List.suffix_cons _ _)).trans (List.suffix_cons _ _), rfl, rfl⟩

/-- Every frame of a run was entered at some point of it, and has not returned since. -/
theorem exists_entry {count : Nat}
    (ran : before.interpret env count function args = (.running, machine))
    (live : frame :: outer <:+ machine.frames) :
    ∃ first rest entry, count = first + rest ∧ Entry env before function args outer first entry ∧
      entry.frames = ⟨frame.bottom, frame.function, 0⟩ :: outer ∧
      run env rest entry = (.running, machine) ∧
      ∀ i between, i ≤ rest → run env i entry = (.running, between) →
        outer.length < between.depth := by
  induction count generalizing machine frame with
  | zero =>
      obtain ⟨started, entered, ran⟩ := interpret_eq_running.mp ran
      cases ran
      have begun := start_eq_running entered
      rw [begun.2.2] at live
      obtain ⟨rfl, rfl⟩ : frame = ⟨0, function, 0⟩ ∧ outer = [] := by
        simpa [List.suffix_cons_iff] using live
      refine ⟨0, 0, machine, rfl, .start entered rfl, by rw [begun.2.2], rfl, ?_⟩
      intro i between early reached
      obtain rfl : i = 0 := by omega
      cases reached
      simp [begun.2.2, depth]
  | succ count ih =>
      obtain ⟨last, earlier, final⟩ := interpret_succ_eq_running.mp ran
      rcases (progress_of_step final).live live with
        ⟨frames, below, atStart⟩ | ⟨old, waiting, sameBottom, sameFunction⟩
      · -- The frame has just been entered.
        refine ⟨count + 1, 0, machine, rfl, .call earlier final below, ?_, rfl, ?_⟩
        · rw [frames, ← atStart]
        · intro i between early reached
          obtain rfl : i = 0 := by omega
          cases reached
          simp [frames, depth]
      · obtain ⟨first, rest, entry, rfl, entered, frames, reached, lasting⟩ := ih earlier waiting
        have onward : run env (rest + 1) entry = (.running, machine) :=
          run_succ_eq_running_last.mpr ⟨last, reached, final⟩
        refine ⟨first, rest + 1, entry, rfl, entered, ?_, onward, ?_⟩
        · rw [frames, sameBottom, sameFunction]
        · intro i between early there
          rcases Nat.lt_or_ge rest i with late | soon
          · obtain rfl : i = rest + 1 := by omega
            rw [onward] at there
            cases there
            exact live.length_le
          · exact lasting i between soon there

theorem Entry.interpret {first : Nat} {entry : Machine}
    (entered : Entry env before function args outer first entry) :
    before.interpret env first function args = (.running, entry) := by
  cases entered with
  | start started => exact interpret_eq_running.mpr ⟨entry, started, rfl⟩
  | call ran called => exact interpret_succ_eq_running.mpr ⟨_, ran, called⟩

end Entries

/-! ## What the arguments hold -/

/-- In every machine that a run of verified code leads to, every frame was entered at some point and
has not returned since, and each of its arguments holds the value last stored to its place since
then, or, if there was no such store, the value it held on entry. -/
theorem arguments_read_only {function : Function} (verified : function.verifyAll = .ok ())
    (env : Environment) (before : Machine) (args : List Value) {count : Nat} {machine : Machine}
    (ran : before.interpret env count function args = (.running, machine)) {frame : Frame}
    {outer : List Frame} (live : frame :: outer <:+ machine.frames) :
    ∃ first rest entry, count = first + rest ∧ Entry env before function args outer first entry ∧
      entry.frames = ⟨frame.bottom, frame.function, 0⟩ :: outer ∧
      run env rest entry = (.running, machine) ∧
      (∀ i between, i ≤ rest → run env i entry = (.running, between) →
        outer.length < between.depth) ∧
      ∀ k < frame.function.argCount.toNat, ∃ value,
        entry.stack.values[frame.bottom + k]? = some value ∧
        machine.stack.values[frame.bottom + k]? =
          some ((storesTo env (frame.bottom + k) rest entry).getLastD value) := by
  obtain ⟨first, rest, entry, split, entered, frames, reached, lasting⟩ := exists_entry ran live
  refine ⟨first, rest, entry, split, entered, frames, reached, lasting, ?_⟩
  intro k argument
  have passed : frame.function.module.check frame.function.id = .ok () :=
    ((RunsWithin.of_interpret entered.interpret).reaches_running frames).check verified
  have window := (Consistent.of_interpret entered.interpret).window_running frames
  have size : frame.function.frameSize =
      frame.function.argCount.toNat + frame.function.numLocals.toNat := rfl
  have onStack : frame.bottom + k < entry.stack.size := by
    dsimp only at window
    omega
  have shields : Shields frame.function frame.bottom outer (frame.bottom + k) entry := by
    refine ⟨⟨?_, by omega⟩, onStack, ?_⟩
    · rw [frames]
      exact .running rfl rfl
    · rw [frames]
      exact beginAbove_of_length_le (Nat.le_refl _)
  obtain ⟨value, holds⟩ : ∃ value, entry.stack.values[frame.bottom + k]? = some value :=
    ⟨_, Array.getElem?_eq_getElem onStack⟩
  have spares := Function.spares_argument passed argument frame.bottom
  exact ⟨value, holds, (shields.run spares reached lasting holds).2⟩

/-- The second function of `poking`. -/
def poke : Function :=
  ⟨poking.stamp, poking.module, ⟨1⟩, by decide⟩

theorem arguments_read_only_poking :
    poking.verifyAll = .ok () ∧
      ∃ first rest entry, 4 = first + rest ∧
        Entry ⟨.unlimited, none, none⟩ .idle poking [] [⟨0, poking, 1⟩] first entry ∧
        ∃ value, entry.stack.values[4]? = some value ∧
          (pokingAfter 4).stack.values[4]? =
            some ((storesTo ⟨.unlimited, none, none⟩ 4 rest entry).getLastD value) := by
  have verified : poking.verifyAll = .ok () := by cbv
  have ran : Machine.idle.interpret ⟨.unlimited, none, none⟩ 4 poking [] =
      (.running, pokingAfter 4) := rfl
  have frames : (pokingAfter 4).frames = [⟨4, poke, 2⟩, ⟨0, poking, 1⟩] := rfl
  have live : [⟨4, poke, 2⟩, ⟨0, poking, 1⟩] <:+ (pokingAfter 4).frames :=
    frames ▸ List.suffix_refl _
  obtain ⟨first, rest, entry, split, entered, -, -, -, kept⟩ :=
    arguments_read_only verified ⟨.unlimited, none, none⟩ .idle [] ran live
  exact ⟨verified, first, rest, entry, split, entered, kept 0 (by decide)⟩

end Machine
end RegisterMachine
