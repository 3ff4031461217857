import RegisterMachine.Proofs.Engine.Operations
import RegisterMachine.Proofs.Machine.Surroundings

/-!
Finished functions stay what they are.

Calls are bound to numbers, not to names, and no operation on an engine touches a function that has
a body: operations add functions behind it, and fill in or take back declarations. So a function
that leads to no bare declaration runs later as it runs now, whatever its name and the names of its
callees have come to stand for. Only a callback that is not registered yet can make a difference.
-/
set_option autoImplicit false

namespace RegisterMachine

theorem Instruction.mapCallee_id (instruction : Instruction) :
    instruction.mapCallee id = instruction := by
  cases instruction <;> rfl

theorem Definition.mapCallees_id (definition : Definition) :
    definition.mapCallees id = definition := by
  have same : Instruction.mapCallee id = id := funext Instruction.mapCallee_id
  simp [mapCallees, same]

namespace Module

variable {before after : Module}

/-- A function whose check goes through has all that it leads to where it was. -/
theorem KeepsDefined.copied {entry : FuncId} (kept : before.KeepsDefined after)
    (complete : before.checkReachable entry = .ok ()) :
    ∃ ids, entry ∈ ids ∧ Copied before after id ids := by
  obtain ⟨ids, closed, passes, -, reached⟩ :=
    checkFrom_eq_ok complete (by simp) (fun other member => absurd member (by simp))
  refine ⟨ids, reached entry (by simp), closed, ?_, fun _ _ _ _ same => same⟩
  intro other member definition present
  obtain ⟨found, here, defined, -⟩ := get?_of_check (passes other member)
  rw [present] at here
  cases here
  rw [definition.mapCallees_id]
  exact kept other definition present defined

theorem Copied.definition_eq {ids : List FuncId} (copied : Copied before after id ids)
    {function kept : Function} (relates : copied.embedding.Relates function kept) :
    kept.definition = function.definition := by
  have present := function.get?_id
  have there := kept.get?_id
  rw [relates.source] at present
  rw [relates.target, relates.renamed] at there
  have same := copied.copies function.id relates.covered function.definition present
  rw [Definition.mapCallees_id] at same
  exact Option.some.inj (there.symm.trans same)

end Module

/-! ## Callbacks -/

/-- A fault for a callback that is not registered. -/
def Fault.lacksCallback (fault : Fault) : Prop :=
  ∃ word, fault = .unknownCallback word

theorem Registry.invoke_of_prefix {registry more : Registry}
    (kept : registry.callbacks <+: more.callbacks) (number : UInt32) (invocation : Invocation) :
    AgreesUnless Fault.lacksCallback (registry.invoke number invocation)
      (more.invoke number invocation) := by
  cases found : registry.get? number with
  | none =>
      refine .inr ⟨.unknownCallback number.toUInt64, ?_, _, rfl⟩
      simp [invoke, found]
  | some callback =>
      obtain ⟨entry, here, rfl⟩ := Option.map_eq_some_iff.mp found
      obtain ⟨added, same⟩ := kept
      have inside := (List.getElem?_eq_some_iff.mp here).1
      have there : more.get? number = some entry.2 := by
        rw [get?, ← same, List.getElem?_append_left inside, here]
        rfl
      left
      simp [invoke, found, there]

namespace Engine

variable {engine middle later : Engine}

/-- The later engine differs by further callbacks and functions, and by what has become of functions
without a body. -/
structure Extends (engine later : Engine) : Prop where
  globals : later.globals = engine.globals
  limits : later.limits = engine.limits
  callbacks : engine.host.callbacks <+: later.host.callbacks
  functions : engine.module.KeepsDefined later.module

namespace Extends

theorem refl (engine : Engine) : engine.Extends engine :=
  ⟨rfl, rfl, List.prefix_refl _, .refl _⟩

theorem trans (first : engine.Extends middle) (second : middle.Extends later) :
    engine.Extends later where
  globals := second.globals.trans first.globals
  limits := second.limits.trans first.limits
  callbacks := first.callbacks.trans second.callbacks
  functions := first.functions.trans second.functions

theorem revise {module : Module} (kept : engine.module.KeepsDefined module) :
    engine.Extends (engine.revise module) :=
  ⟨rfl, rfl, List.prefix_refl _, kept⟩

theorem widened (extended : engine.Extends later) :
    engine.environment.Widened Fault.lacksCallback later.environment where
  globals := congrArg some extended.globals
  host := .some (Registry.invoke_of_prefix extended.callbacks)
  depth frames := .inl (by simp only [environment, extended.limits])
  stack stack := .inl (by simp only [environment, extended.limits])

end Extends

/-! ## One operation -/

/-- Whether an operation sets or removes a global variable. -/
def Operation.changesGlobals : Operation → Bool
  | .setGlobal _ _ => true
  | .removeGlobal _ => true
  | _ => false

theorem extends_registerCallback (engine : Engine) (name : String) (callback : Callback) :
    engine.Extends (engine.perform (.registerCallback name callback)) := by
  simp only [perform, registerCallback, Registry.register]
  by_cases room : engine.host.size < engine.host.limit
  · rw [if_pos room]
    exact ⟨rfl, rfl, List.prefix_append _ _, .refl _⟩
  · rw [if_neg room]
    exact .refl engine

theorem extends_declare (engine : Engine) (name : String) (argCount : Slot) :
    engine.Extends (engine.declare name argCount).2 := by
  unfold declare
  rcases Nat.lt_or_ge engine.module.size Module.capacity with room | full
  · rw [Module.declare_of_room room]
    exact .revise (.append _ _)
  · rw [Module.declare_of_full full]
    exact .revise (.refl _)

theorem TextTarget.keepsDefined {module declared : Module} {name : String} {argCount : Slot}
    {id : FuncId} (target : TextTarget module name argCount id declared)
    (change : Definition → Definition) : module.KeepsDefined (declared.modify id change) := by
  cases target with
  | pending found =>
      obtain ⟨definition, present, bodiless, -⟩ := pending?_eq_some found
      exact .modify present bodiless change
  | fresh new room =>
      rw [Module.modify_append_cons room]
      exact .append _ _

theorem extends_defineText (engine : Engine) (name source : String) (argCount numLocals : Slot) :
    engine.Extends (engine.defineText name source argCount numLocals).2 := by
  have outcome := engine.textOutcome name source argCount numLocals
  generalize engine.defineText name source argCount numLocals = result at outcome
  cases outcome with
  | full new crowded => exact .revise (.refl _)
  | unread target refused => exact .revise (.refl _)
  | rejected target assembled failed left =>
      cases left with
      | fresh new => exact .revise (.refl _)
      | pending found => exact .revise ((TextTarget.pending found).keepsDefined _)
  | defined target assembled passed known => exact .revise (target.keepsDefined _)

theorem extends_define (engine : Engine) (name : String) (function : Function) :
    engine.Extends (engine.define name function).2 := by
  have outcome := engine.registration name function
  generalize engine.define name function = result at outcome
  cases outcome with
  | unverified failed => exact .refl engine
  | unbuilt verified failed => exact .revise (.refl _)
  | @entered callees handle verified found room known =>
      -- The entry's copy is renamed although it has a body, but it is new.
      have table := engine.module.entered_eq callees name function.get?_id (by omega)
      refine .revise ?_
      rw [table]
      exact .append _ _

theorem extends_loadImage (engine : Engine) (name : String) (bytes : List UInt8) :
    engine.Extends (engine.loadImage name bytes).2 := by
  unfold loadImage
  split
  · exact .refl engine
  · exact extends_define engine name _

theorem extends_perform (engine : Engine) {operation : Operation}
    (quiet : operation.changesGlobals = false) : engine.Extends (engine.perform operation) := by
  cases operation with
  | setGlobal name value => cases quiet
  | removeGlobal name => cases quiet
  | registerCallback name callback => exact extends_registerCallback engine name callback
  | declare name argCount => exact extends_declare engine name argCount
  | defineText name source argCount numLocals =>
      exact extends_defineText engine name source argCount numLocals
  | define name function => exact extends_define engine name function
  | loadImage name bytes => exact extends_loadImage engine name bytes

/-! ## Any number of operations -/

theorem extends_foldl_perform (engine : Engine) {operations : List Operation}
    (quiet : ∀ operation ∈ operations, operation.changesGlobals = false) :
    engine.Extends (operations.foldl perform engine) := by
  induction operations generalizing engine with
  | nil => exact .refl engine
  | cons operation rest ih =>
      obtain ⟨first, others⟩ := List.forall_mem_cons.mp quiet
      exact (extends_perform engine first).trans (ih (engine.perform operation) others)

end Engine

/-! ## Runs in both engines -/

/-- The frame of the same function, at the same place. The modules that the two handles carry may
differ elsewhere. -/
structure Frame.SamePlace (frame later : Frame) : Prop where
  bottom : later.bottom = frame.bottom
  pc : later.pc = frame.pc
  id : later.function.id = frame.function.id
  definition : later.function.definition = frame.function.definition

/-- The same outcome, in machines with the same contents. -/
structure Machine.SameOutcome (outcome later : Status × Machine) : Prop where
  status : later.1 = outcome.1
  stack : later.2.stack = outcome.2.stack
  steps : later.2.steps = outcome.2.steps
  output : later.2.output = outcome.2.output
  frames : List.Forall₂ Frame.SamePlace outcome.2.frames later.2.frames

theorem Module.Copied.sameOutcome {before after : Module} {ids : List FuncId}
    (copied : Copied before after id ids) {outcome later : Status × Machine}
    (agree : copied.embedding.Agree outcome later) : Machine.SameOutcome outcome later where
  status := agree.status
  stack := agree.lockstep.stack
  steps := agree.lockstep.steps
  output := agree.lockstep.output
  frames := by
    refine agree.lockstep.frames.imp ?_
    intro frame kept related
    exact ⟨related.bottom, related.pc, related.function.renamed,
      copied.definition_eq related.function⟩

namespace Engine

variable {engine later : Engine}

theorem Extends.interpret {embedding : Embedding} {function kept : Function}
    (extended : engine.Extends later) (relates : embedding.Relates function kept)
    (before : Machine) (fuel : Nat) (args : List Value) :
    (∃ word, (before.interpret engine.environment fuel function args).1 =
      .faulted (.unknownCallback word)) ∨
    embedding.Agree (before.interpret engine.environment fuel function args)
      (before.interpret later.environment fuel kept args) := by
  have allowed : ∀ count ≤ fuel, AgreesUnless Fault.lacksCallback
      (engine.environment.limits.checkSteps count) (later.environment.limits.checkSteps count) := by
    intro count bound
    simp only [environment, extended.limits]
    exact .refl _
  -- First the surroundings change and the handle stays, then the handle changes.
  have follows := Machine.follows_interpret extended.widened allowed before before function args
  have agree := relates.interpret later.environment fuel before args
  generalize before.interpret engine.environment fuel function args = outcome at follows ⊢
  generalize before.interpret later.environment fuel function args = between at follows agree
  cases follows with
  | lacking lacked =>
      obtain ⟨word, rfl⟩ := lacked
      exact .inl ⟨word, rfl⟩
  | alike twins =>
      rw [twins.eq] at agree
      exact .inr agree

/-- What a run amounts to that has come to this. -/
def resultOf : Status → Except EngineError (Option Value)
  | .running => .ok none
  | .returned value => .ok (some value)
  | .faulted cause => .error (.fault cause)

theorem runFunction_eq_of_verified {function : Function} (verified : function.verifyAll = .ok ())
    (engine : Engine) (fuel : Nat) (args : List Value) :
    engine.runFunction fuel function args =
      (Machine.idle.interpret engine.environment fuel function args).map resultOf id := by
  rw [runFunction, verified]
  dsimp only
  split
  all_goals
    rename_i reached
    rw [reached]
    rfl

theorem runFunction_of_verified {function : Function} (verified : function.verifyAll = .ok ())
    (engine : Engine) (fuel : Nat) (args : List Value) :
    (engine.runFunction fuel function args).1 =
      resultOf (Machine.idle.interpret engine.environment fuel function args).1 :=
  congrArg Prod.fst (runFunction_eq_of_verified verified engine fuel args)

/-- A function that passes verification with all it leads to is found later under the same number,
after any operations that leave the globals alone, and passes again. Its runs in the two engines have
come, after every number of steps, to the same outcome with the same contents, unless the first has
ended for want of a callback. -/
theorem complete_function_persists {engine later : Engine} {operations : List Operation}
    {entry : FuncId} (quiet : ∀ operation ∈ operations, operation.changesGlobals = false)
    (reached : operations.foldl perform engine = later)
    (complete : engine.module.checkReachable entry = .ok ()) :
    ∃ function kept, Function.of? engine.stamp engine.module entry = some function ∧
      Function.of? later.stamp later.module entry = some kept ∧ kept.verifyAll = .ok () ∧
      (∀ before fuel args,
        (∃ word, (Machine.interpret engine.environment fuel before function args).1 =
          .faulted (.unknownCallback word)) ∨
        Machine.SameOutcome (Machine.interpret engine.environment fuel before function args)
          (Machine.interpret later.environment fuel before kept args)) ∧
      ∀ fuel args,
        (∃ word, (engine.runFunction fuel function args).1 =
          .error (.fault (.unknownCallback word))) ∨
        (later.runFunction fuel kept args).1 = (engine.runFunction fuel function args).1 := by
  subst reached
  have extended := engine.extends_foldl_perform quiet
  generalize operations.foldl perform engine = later at extended ⊢
  obtain ⟨ids, member, copied⟩ := extended.functions.copied complete
  obtain ⟨definition, present⟩ := copied.closed.present entry member
  have there := copied.copies entry member definition present
  have inModule := (List.getElem?_eq_some_iff.mp present).1
  have inLater := (List.getElem?_eq_some_iff.mp there).1
  have again : later.module.checkReachable entry = .ok () := by
    have mirrored := copied.checkReachable member
    rwa [complete] at mirrored
  let function : Function := ⟨engine.stamp, engine.module, entry, inModule⟩
  let kept : Function := ⟨later.stamp, later.module, entry, inLater⟩
  have verified : function.verifyAll = .ok () := complete
  have verifiedLater : kept.verifyAll = .ok () := again
  have relates : copied.embedding.Relates function kept := ⟨rfl, rfl, member, rfl⟩
  refine ⟨function, kept, dif_pos inModule, dif_pos inLater, again, ?_, ?_⟩
  · intro before fuel args
    exact (extended.interpret relates before fuel args).imp_right copied.sameOutcome
  · intro fuel args
    rw [runFunction_of_verified verified, runFunction_of_verified verifiedLater]
    rcases extended.interpret relates .idle fuel args with ⟨word, lacked⟩ | agree
    · exact .inl ⟨word, congrArg resultOf lacked⟩
    · exact .inr (congrArg resultOf agree.status)

/-- The second function calls the first. -/
def linked : Engine :=
  history 0 .unlimited [.defineText "f" "Ci0,i1|R0" 0 1, .defineText "g" "()0,f|R0" 0 1]

/-- Both names are taken over, one by a declaration whose body is refused. -/
def relinking : List Operation :=
  [.defineText "f" "Ci0,i2|R0" 0 1, .declare "g" 0, .defineText "g" "Q" 0 0]

theorem complete_function_persists_linked :
    linked.module.checkReachable ⟨1⟩ = .ok () ∧
    (relinking.foldl perform linked).module.lookup "f" = some ⟨2⟩ ∧
    ∃ kept, Function.of? ⟨0, 5⟩ (relinking.foldl perform linked).module ⟨1⟩ = some kept ∧
      ((relinking.foldl perform linked).runFunction 4 kept []).1 = .ok (some (.int32 1)) := by
  have quiet : ∀ operation ∈ relinking, operation.changesGlobals = false := by
    simp [relinking, Operation.changesGlobals]
  have table : linked.module = ⟨[⟨some "f", 0, 1, some [.constantInt32 0 1, .leave 0]⟩,
      ⟨some "g", 0, 1, some [.call 0 ⟨0⟩ [], .leave 0]⟩]⟩ := rfl
  have complete : linked.module.checkReachable ⟨1⟩ = .ok () := by
    rw [table]
    cbv
  obtain ⟨function, kept, known, found, -, -, runs⟩ :=
    complete_function_persists quiet rfl complete
  have entry : Function.of? linked.stamp linked.module ⟨1⟩ =
      some ⟨⟨0, 2⟩, linked.module, ⟨1⟩, by decide⟩ := rfl
  cases known.symm.trans entry
  have verified : Function.verifyAll ⟨⟨0, 2⟩, linked.module, ⟨1⟩, by decide⟩ = .ok () := complete
  have result : (linked.runFunction 4 ⟨⟨0, 2⟩, linked.module, ⟨1⟩, by decide⟩ []).1 =
      .ok (some (.int32 1)) := by
    rw [runFunction_of_verified verified]
    rfl
  refine ⟨complete, rfl, kept, found, ?_⟩
  rcases runs 4 [] with ⟨word, lacked⟩ | same
  · rw [result] at lacked
    cases lacked
  · exact same.trans result

end Engine
end RegisterMachine
