import RegisterMachine.Proofs.Assembly.Definition
import RegisterMachine.Proofs.Machine.Soundness

/-!
The locals that code needs.

Code that runs in a frame which holds every slot it mentions never asks for another one, so a fault
for a missing slot is always due to a function with too few locals. The locals inferred for a text
are the fewest that cover its slots, with one exception: the count of slots stops before it takes
in the last slot there is, and code that mentions that one is given one local too few.
-/
set_option autoImplicit false

namespace RegisterMachine

/-! ## Slots and covers -/

/-- The instruction assigns `slot`, reads it, or passes it to a callback. -/
def Instruction.Mentions (instruction : Instruction) (slot : Slot) : Prop :=
  instruction.dest? = some slot ∨ instruction.x? = some slot ∨ instruction.y? = some slot ∨
    ∃ dest callee args, instruction = .execute dest callee args ∧ slot ∈ args

theorem Instruction.mem_frameSlots_iff {instruction : Instruction} {slot : Slot} :
    slot ∈ instruction.frameSlots ↔ instruction.Mentions slot := by
  cases instruction <;> simp [frameSlots, Mentions, dest?, x?, y?, eq_comm]

def Mentioned (code : List Instruction) (slot : Slot) : Prop :=
  ∃ instruction ∈ code, instruction.Mentions slot

/-- With so many locals beside its arguments, a function has all slots that the code mentions. -/
def Covers (code : List Instruction) (argCount locals : Slot) : Prop :=
  ∀ slot, Mentioned code slot → slot.toNat < argCount.toNat + locals.toNat

/-- The fewest locals that will do. -/
structure LeastCover (code : List Instruction) (argCount locals : Slot) : Prop where
  covers : Covers code argCount locals
  least : ∀ fewer, Covers code argCount fewer → locals ≤ fewer

structure Highest (code : List Instruction) (slot : Slot) : Prop where
  mentioned : Mentioned code slot
  above : ∀ other, Mentioned code other → other ≤ slot

section Covers

variable {code : List Instruction} {argCount locals slot highest : Slot}

theorem mem_flatMap_frameSlots_iff :
    slot ∈ code.flatMap Instruction.frameSlots ↔ Mentioned code slot := by
  simp only [List.mem_flatMap, Instruction.mem_frameSlots_iff, Mentioned]

theorem contains_frameSlots_iff :
    (code.flatMap Instruction.frameSlots).contains slot = true ↔ Mentioned code slot := by
  rw [List.contains_iff_mem, mem_flatMap_frameSlots_iff]

instance : Decidable (Mentioned code slot) :=
  decidable_of_iff _ contains_frameSlots_iff

theorem all_frameSlots_iff :
    (code.flatMap Instruction.frameSlots).all (·.toNat < argCount.toNat + locals.toNat) = true ↔
      Covers code argCount locals := by
  simp only [List.all_eq_true, decide_eq_true_eq, mem_flatMap_frameSlots_iff, Covers]

instance : Decidable (Covers code argCount locals) :=
  decidable_of_iff _ all_frameSlots_iff

/-! ## The inferred number -/

theorem localsNeeded_cases (code : List Instruction) (argCount : Slot) :
    ((∀ slot, ¬ Mentioned code slot) ∧ localsNeeded code argCount = 0) ∨
      ∃ highest, Highest code highest ∧
        (localsNeeded code argCount).toNat = min (highest.toNat + 1) 65535 - argCount.toNat := by
  unfold localsNeeded
  split
  · rename_i nothing
    left
    rw [List.max?_eq_none_iff, List.map_eq_nil_iff] at nothing
    refine ⟨fun slot mentioned => ?_, rfl⟩
    rw [← mem_flatMap_frameSlots_iff, nothing] at mentioned
    cases mentioned
  · rename_i number maximum
    right
    obtain ⟨member, above⟩ := List.max?_eq_some_iff.mp maximum
    obtain ⟨highest, listed, rfl⟩ := List.mem_map.mp member
    refine ⟨highest, ⟨mem_flatMap_frameSlots_iff.mp listed, ?_⟩, ?_⟩
    · intro other mentioned
      exact above _ (List.mem_map_of_mem (mem_flatMap_frameSlots_iff.mpr mentioned))
    · exact UInt16.toNat_ofNat_of_lt (by simp only [UInt16.size]; omega)

theorem Highest.covers_iff (top : Highest code highest) :
    Covers code argCount locals ↔ highest.toNat < argCount.toNat + locals.toNat := by
  constructor
  · exact fun covers => covers highest top.mentioned
  · intro inside slot mentioned
    have below := UInt16.le_iff_toNat_le.mp (top.above slot mentioned)
    omega

/-- Up to the last slot but one, the inferred locals are the fewest that will do. -/
theorem leastCover_localsNeeded (argCount : Slot) (absent : ¬ Mentioned code 65535) :
    LeastCover code argCount (localsNeeded code argCount) := by
  rcases localsNeeded_cases code argCount with ⟨silent, none⟩ | ⟨highest, top, number⟩
  · rw [none]
    exact ⟨fun slot mentioned => absurd mentioned (silent slot), fun fewer _ => UInt16.zero_le⟩
  · have below : highest.toNat < 65535 := by
      have differs : highest ≠ 65535 := by
        rintro rfl
        exact absent top.mentioned
      have bound := highest.toNat_lt
      have apart := mt UInt16.toNat_inj.mp differs
      have last : (65535 : UInt16).toNat = 65535 := rfl
      omega
    constructor
    · rw [top.covers_iff]
      omega
    · intro fewer covers
      rw [top.covers_iff] at covers
      rw [UInt16.le_iff_toNat_le]
      omega

/-- The last slot makes the inferred locals one too few. -/
theorem leastCover_localsNeeded_succ (mentioned : Mentioned code 65535)
    (coverable : Covers code argCount locals) :
    ¬ Covers code argCount (localsNeeded code argCount) ∧
      LeastCover code argCount (localsNeeded code argCount + 1) := by
  rcases localsNeeded_cases code argCount with ⟨silent, -⟩ | ⟨highest, top, number⟩
  · exact absurd mentioned (silent 65535)
  have last : highest.toNat = 65535 := by
    have above := UInt16.le_iff_toNat_le.mp (top.above 65535 mentioned)
    have bound := highest.toNat_lt
    have limit : (65535 : UInt16).toNat = 65535 := rfl
    omega
  have room := top.covers_iff.mp coverable
  have most := locals.toNat_lt
  have arguments := argCount.toNat_lt
  -- There are 65536 slots to count, and the count has stopped at 65535.
  have more : (localsNeeded code argCount + 1).toNat = 65536 - argCount.toNat := by
    have one : (1 : UInt16).toNat = 1 := rfl
    rw [UInt16.toNat_add, number, last, one]
    omega
  refine ⟨?_, ?_, ?_⟩
  · rw [top.covers_iff]
    omega
  · rw [top.covers_iff]
    omega
  · intro fewer covers
    rw [top.covers_iff] at covers
    rw [UInt16.le_iff_toNat_le]
    omega

end Covers

/-! ## Missing slots -/

/-- The function has all slots that its code mentions. -/
def Definition.Covered (definition : Definition) : Prop :=
  Covers definition.code definition.argCount definition.numLocals

theorem Frame.mentioned_of_instruction {frame : Frame} {instruction : Instruction} {slot : Slot}
    (current : frame.instruction = .ok instruction) (operand : slot ∈ instruction.frameSlots) :
    Mentioned frame.function.definition.code slot :=
  ⟨instruction, mem_code_of_instruction current, Instruction.mem_frameSlots_iff.mp operand⟩

namespace Machine

variable {env : Environment} {machine before : Machine} {function : Function}
  {slot bottom size : Nat}

theorem Consistent.slot_lt_of_covered (consistent : machine.Consistent) {frame : Frame}
    {callers : List Frame} (running : machine.frames = frame :: callers)
    (covered : frame.function.definition.Covered) {slot : Slot}
    (mentioned : Mentioned frame.function.definition.code slot) :
    frame.bottom + slot.toNat < machine.stack.size := by
  have window := consistent.window_running running
  have inside : slot.toNat < frame.function.frameSize := covered slot mentioned
  omega

/-- A slot is missing for want of locals in the function of a frame. -/
theorem StepFault.exists_not_covered
    (stopped : StepFault env machine (.slotOutOfRange slot bottom size))
    (consistent : machine.Consistent) :
    ∃ frame ∈ machine.frames, frame.bottom = bottom ∧ ¬ frame.function.definition.Covered := by
  generalize cause : Fault.slotOutOfRange slot bottom size = fault at stopped
  cases stopped with
  | @refused frame callers instruction fault running current refusal =>
      cases refusal with
      | slot operand outside =>
          cases cause
          refine ⟨frame, by simp [running], rfl, fun covered => Nat.not_lt.mpr outside ?_⟩
          exact consistent.slot_lt_of_covered running covered
            (Frame.mentioned_of_instruction current operand)
      | _ => cases cause
  | @dest frame callers instruction dest size running current target outside =>
      cases cause
      refine ⟨frame, by simp [running], rfl, fun covered => Nat.not_lt.mpr outside ?_⟩
      exact consistent.slot_lt_of_covered running covered
        (Frame.mentioned_of_instruction current (Instruction.dest_mem_frameSlots target))
  | @callerDest frame caller rest dest callee args size running site outside =>
      cases cause
      refine ⟨caller, by simp [running], rfl, fun covered => Nat.not_lt.mpr outside ?_⟩
      -- The caller's slots end below the frame that is given up.
      have inside := (consistent.pop running).slot_lt_of_covered rfl covered
        (Frame.mentioned_of_instruction site (Instruction.dest_mem_frameSlots rfl))
      simpa using inside
  | _ => cases cause

theorem start_ne_slotOutOfRange {limits : Limits} {args : List Value} :
    (before.start limits function args).1 ≠ .faulted (.slotOutOfRange slot bottom size) := by
  intro stopped
  simp only [start] at stopped
  split at stopped
  · obtain ⟨limit, same⟩ := enter_eq_faulted (Prod.ext stopped rfl)
    cases same
  · cases stopped

/-- A run misses a slot only if calls lead to a function that has too few. -/
theorem exists_not_covered_of_interpret {fuel : Nat} {args : List Value}
    (stopped : (before.interpret env fuel function args).1 =
      .faulted (.slotOutOfRange slot bottom size)) :
    ∃ other, function.Reaches other ∧ ¬ other.definition.Covered := by
  rcases interpret_eq_ended (by simp) (Prod.ext stopped rfl) with
    entered | ⟨count, last, ran, final⟩
  · exact absurd (congrArg Prod.fst entered) start_ne_slotOutOfRange
  · obtain ⟨frame, member, -, lacking⟩ :=
      (stepFault_of_step final).exists_not_covered (.of_interpret ran)
    exact ⟨frame.function, (RunsWithin.of_interpret ran).reaches frame member, lacking⟩

/-- A function whose first instruction assigns a slot it does not have gets no further. -/
theorem interpret_of_missing_dest {args : List Value} {dest : Slot} {value : Int32}
    (arity : args.length = function.argCount.toNat)
    (first : Frame.instruction ⟨0, function, 0⟩ = .ok (.constantInt32 dest value))
    (missing : function.frameSize ≤ dest.toNat) :
    (idle.interpret ⟨.unlimited, none, none⟩ 1 function args).1 =
      .faulted (.slotOutOfRange dest.toNat 0 function.frameSize) := by
  obtain ⟨started, entered, running, size⟩ : ∃ started,
      idle.start .unlimited function args = (.running, started) ∧
        started.frames = [⟨0, function, 0⟩] ∧ started.stack.size = function.frameSize :=
    ⟨_, if_pos arity, rfl,
      (ValueStack.empty.size_pushWindow_eq_frameSize arity).trans (Nat.zero_add _)⟩
  have counts : ∀ steps, Limits.unlimited.checkSteps steps = .ok () := fun _ => rfl
  have outside : started.counted.stack.size ≤ 0 + dest.toNat := by
    rw [stack_counted]
    omega
  simp only [interpret, entered, run, step_eq_counted, counts, frames_counted, running, first,
    Environment.plan, perform]
  rw [assign_of_le outside, stack_counted, size]

end Machine

/-! ## Functions that texts define -/

namespace Module

open Machine

theorem definition_of_extensions {after : Module} {id : FuncId} {name : String} {argCount : Slot}
    {numLocals : Option Slot} {code : List Instruction} {function : Function}
    (present : after.get? id = some (.ofText name argCount numLocals code))
    (extended : Relation.ReflTransGen Extension after function.module) (same : function.id = id) :
    function.definition = .ofText name argCount numLocals code := by
  have there := (keeps_of_extensions extended).2 id _ present rfl
  rw [← same, function.get?_id] at there
  exact Option.some.inj there

/-- Of code that some number of locals covers, the inferred number is the least one exactly if the
last slot is not mentioned; otherwise it is one too few. A function that a text defines without
telling the number, and that does not mention the last slot, finds all its slots whenever it runs or
is returned to, and no run of it misses one unless calls lead to another function that has too
few. -/
theorem inferred_locals_exact (code : List Instruction) (argCount : Slot) :
    (∀ locals, Covers code argCount locals →
      (LeastCover code argCount (localsNeeded code argCount) ↔ ¬ Mentioned code 65535) ∧
      (Mentioned code 65535 → LeastCover code argCount (localsNeeded code argCount + 1))) ∧
    ∀ (module : Module) callbacks name source id after,
      module.attemptText callbacks name source argCount none = (.ok id, after) →
      (module.textScope callbacks name argCount).assemble source = .ok code →
      ¬ Mentioned code 65535 → ∀ function : Function,
        Relation.ReflTransGen Extension after function.module → function.id = id →
        function.definition = .ofText name argCount none code ∧ function.definition.Covered ∧
        (∀ machine frame rest slot, Reachable machine → frame.function = function →
          Mentioned code slot →
          (machine.frames = frame :: rest →
            frame.place machine.stack slot.toNat = .ok (frame.bottom + slot.toNat)) ∧
          ∀ callee, machine.frames = callee :: frame :: rest →
            frame.place (machine.stack.truncate callee.bottom) slot.toNat =
              .ok (frame.bottom + slot.toNat)) ∧
        ∀ env fuel (before : Machine) args slot bottom size,
          (before.interpret env fuel function args).1 =
            .faulted (.slotOutOfRange slot bottom size) →
          ∃ other, function.Reaches other ∧ ¬ other.definition.Covered := by
  constructor
  · intro locals coverable
    refine ⟨⟨fun least mentioned => ?_, fun absent => leastCover_localsNeeded argCount absent⟩,
      fun mentioned => (leastCover_localsNeeded_succ mentioned coverable).2⟩
    exact (leastCover_localsNeeded_succ mentioned coverable).1 least.covers
  · intro module callbacks name source id after success assembled absent function extended same
    obtain ⟨found, room, rfl, again, rfl⟩ := attemptText_eq_ok success
    rw [assembled] at again
    cases again
    have definition := definition_of_extensions (get?_append_cons room _ []) extended same
    have covered : function.definition.Covered := by
      rw [definition]
      exact (leastCover_localsNeeded argCount absent).covers
    refine ⟨definition, covered, ?_, ?_⟩
    · rintro machine frame rest slot reached rfl mentioned
      have own : Mentioned frame.function.definition.code slot := by
        rw [definition]
        exact mentioned
      refine ⟨fun running => if_pos ?_, fun callee running => if_pos ?_⟩
      · exact reached.consistent.slot_lt_of_covered running covered own
      · exact (reached.consistent.pop running).slot_lt_of_covered rfl covered own
    · intro env fuel before args slot bottom size stopped
      exact exists_not_covered_of_interpret stopped

/-- A function that adds seven to its argument. -/
def adding : Function where
  stamp := ⟨0, 0⟩
  module := ⟨[⟨some "f", 1, 2, some [.constantInt32 1 7, .add 2 0 1, .leave 2]⟩]⟩
  id := ⟨0⟩
  inModule := by decide

theorem inferred_locals_exact_adding :
    empty.attemptText none "f" "Ci1,i7|+i2,0,1|R2" 1 none = (.ok ⟨0⟩, adding.module) ∧
      LeastCover adding.definition.code 1 2 ∧
      ∀ env fuel (before : Machine) args slot bottom size,
        (before.interpret env fuel adding args).1 ≠
          .faulted (.slotOutOfRange slot bottom size) := by
  have success : empty.attemptText none "f" "Ci1,i7|+i2,0,1|R2" 1 none =
      (.ok ⟨0⟩, adding.module) := by decide +kernel
  have assembled : (empty.textScope none "f" 1).assemble "Ci1,i7|+i2,0,1|R2" =
      .ok adding.definition.code := by decide +kernel
  obtain ⟨least, runs⟩ := inferred_locals_exact adding.definition.code 1
  obtain ⟨-, covered, -, missing⟩ :=
    runs empty none "f" _ _ _ success assembled (by decide) adding .refl rfl
  refine ⟨success, (least 2 (by decide)).1.mpr (by decide), ?_⟩
  intro env fuel before args slot bottom size stopped
  obtain ⟨other, reaches, lacking⟩ := missing env fuel before args slot bottom size stopped
  have alone : other.definition ∈ adding.module.functions := by
    rw [← reaches.sameModule]
    exact List.get_mem ..
  rw [List.mem_singleton.mp alone] at lacking
  exact lacking covered

/-- The locals inferred for the last slot leave it out, and the first instruction misses it. -/
theorem inferred_locals_miss_last_slot :
    Covers [.constantInt32 65535 7, .leave 65535] 1 65535 ∧
      localsNeeded [.constantInt32 65535 7, .leave 65535] 1 = 65534 ∧
      ¬ Covers [.constantInt32 65535 7, .leave 65535] 1 65534 ∧
      ∃ after, empty.attemptText none "f" "Ci65535,i7|R65535" 1 none = (.ok ⟨0⟩, after) ∧
        ∀ function : Function, function.module = after → function.id = ⟨0⟩ →
          (Machine.idle.interpret ⟨.unlimited, none, none⟩ 1 function [.int32 0]).1 =
            .faulted (.slotOutOfRange 65535 0 65535) := by
  have success : empty.attemptText none "f" "Ci65535,i7|R65535" 1 none =
      (.ok ⟨0⟩, ⟨[⟨some "f", 1, 65534, some [.constantInt32 65535 7, .leave 65535]⟩]⟩) := by
    decide +kernel
  refine ⟨by decide, by decide, by decide, _, success, ?_⟩
  intro function module id
  have definition : function.definition =
      ⟨some "f", 1, 65534, some [.constantInt32 65535 7, .leave 65535]⟩ := by
    have present := function.get?_id
    rw [module, id] at present
    exact (Option.some.inj present).symm
  have arity : [Value.int32 0].length = function.argCount.toNat := by
    rw [Function.argCount, definition]
    rfl
  have first : Frame.instruction ⟨0, function, 0⟩ = .ok (.constantInt32 65535 7) := by
    rw [Frame.instruction_eq_ok_iff, Function.code, definition]
    rfl
  have size : function.frameSize = 65535 := by
    rw [Function.frameSize, definition]
    rfl
  have missed := interpret_of_missing_dest arity first (by rw [size]; decide)
  rw [size] at missed
  exact missed

end Module

end RegisterMachine
