import RegisterMachine.Engine
import RegisterMachine.Proofs.Module.Table

/-!
Definitions by text, and what a failed one leaves behind.

The text is assembled against the module with the function's name in it: a pending declaration, or a
new one. `TextOutcome` lists the ways a definition can end. A new declaration that fails disappears.
A pending one that fails its check keeps the number of locals it was given.
-/
set_option autoImplicit false

namespace RegisterMachine

/-- The same function with this body and number of locals. -/
def Definition.filled (code : List Instruction) (numLocals : Slot) (definition : Definition) :
    Definition :=
  { definition with body := some code, numLocals := numLocals }

/-- The same function with this number of locals. -/
def Definition.resized (numLocals : Slot) (definition : Definition) : Definition :=
  { definition with numLocals := numLocals }

namespace Engine

variable {engine : Engine} {name source : String} {argCount numLocals : Slot}

theorem pending?_eq_some {module : Module} {id : FuncId}
    (found : pending? module name argCount = some id) :
    ∃ definition, module.get? id = some definition ∧ definition.body = none ∧
      definition.argCount = argCount := by
  simp only [pending?, Option.bind_eq_bind, Option.bind_eq_some_iff] at found
  obtain ⟨named, -, definition, present, chosen⟩ := found
  split at chosen
  · rename_i declared
    cases chosen
    exact ⟨definition, present, by simpa [Definition.isDefined] using declared.1, declared.2⟩
  · cases chosen

/-- The function that a definition by text is for, and the module with its declaration. -/
inductive TextTarget (module : Module) (name : String) (argCount : Slot) : FuncId → Module → Prop
  | pending {id : FuncId} (found : pending? module name argCount = some id) :
      TextTarget module name argCount id module
  | fresh (new : pending? module name argCount = none) (room : module.size < Module.capacity) :
      TextTarget module name argCount (.ofIndex module.size)
        ⟨module.functions ++ [.declared name argCount]⟩

/-- The module after a definition whose function fails its check. -/
inductive Rejected (module : Module) (name : String) (argCount numLocals : Slot) : Module → Prop
  | pending {id : FuncId} (found : pending? module name argCount = some id) :
      Rejected module name argCount numLocals (module.modify id (Definition.resized numLocals))
  | fresh (new : pending? module name argCount = none) :
      Rejected module name argCount numLocals module

/-- The ways a definition by text ends. -/
inductive TextOutcome (engine : Engine) (name source : String) (argCount numLocals : Slot) :
    Except EngineError Function × Engine → Prop
  | full (new : pending? engine.module name argCount = none)
      (crowded : Module.capacity ≤ engine.module.size) :
      TextOutcome engine name source argCount numLocals
        (.error (.build .tooManyFunctions), engine.revise engine.module)
  | unread {id : FuncId} {declared : Module} {error : AssemblyError}
      (target : TextTarget engine.module name argCount id declared)
      (refused : Scope.assemble ⟨some declared, some engine.host⟩ source = .error error) :
      TextOutcome engine name source argCount numLocals
        (.error (.assembly error), engine.revise engine.module)
  | rejected {id : FuncId} {declared after : Module} {code : List Instruction}
      {error : VerifyError} (target : TextTarget engine.module name argCount id declared)
      (assembled : Scope.assemble ⟨some declared, some engine.host⟩ source = .ok code)
      (failed : (declared.modify id (Definition.filled code numLocals)).check id = .error error)
      (left : Rejected engine.module name argCount numLocals after) :
      TextOutcome engine name source argCount numLocals
        (.error (.verify error), engine.revise after)
  | defined {id : FuncId} {declared : Module} {code : List Instruction} {handle : Function}
      (target : TextTarget engine.module name argCount id declared)
      (assembled : Scope.assemble ⟨some declared, some engine.host⟩ source = .ok code)
      (passed : (declared.modify id (Definition.filled code numLocals)).check id = .ok ())
      (known : (engine.revise (declared.modify id (Definition.filled code numLocals))).handle id =
        .ok handle) :
      TextOutcome engine name source argCount numLocals
        (.ok handle, engine.revise (declared.modify id (Definition.filled code numLocals)))

/-- A body that is given to a declared function and checked. -/
inductive BodyOutcome (declared : Module) (host : Registry) (id : FuncId) (source : String)
    (numLocals : Slot) : Except EngineError Unit × Module → Prop
  | unread {error : AssemblyError}
      (refused : Scope.assemble ⟨some declared, some host⟩ source = .error error) :
      BodyOutcome declared host id source numLocals (.error (.assembly error), declared)
  | rejected {code : List Instruction} {error : VerifyError}
      (assembled : Scope.assemble ⟨some declared, some host⟩ source = .ok code)
      (failed : (declared.modify id (Definition.filled code numLocals)).check id = .error error) :
      BodyOutcome declared host id source numLocals
        (.error (.verify error), declared.modify id (Definition.filled code numLocals))
  | defined {code : List Instruction}
      (assembled : Scope.assemble ⟨some declared, some host⟩ source = .ok code)
      (passed : (declared.modify id (Definition.filled code numLocals)).check id = .ok ()) :
      BodyOutcome declared host id source numLocals
        (.ok (), declared.modify id (Definition.filled code numLocals))

theorem bodyOutcome {declared : Module} {id : FuncId} {definition : Definition}
    (present : declared.get? id = some definition) (bodiless : definition.body = none)
    (host : Registry) (source : String) (numLocals : Slot) :
    BodyOutcome declared host id source numLocals
      (defineBody declared host id source numLocals) := by
  unfold defineBody
  split
  · exact .unread ‹_›
  · rename_i code assembled
    rw [Module.define_of_get? present bodiless]
    dsimp only
    split
    · exact .rejected assembled ‹_›
    · exact .defined assembled ‹_›

theorem handle_eq_ok_iff {id : FuncId} {handle : Function} :
    engine.handle id = .ok handle ↔ Function.of? engine.stamp engine.module id = some handle := by
  unfold Engine.handle
  split
  · rename_i found known
    simp [known]
  · rename_i unknown
    simp [unknown]

theorem handle_revise (engine : Engine) {module : Module} {id : FuncId} {definition : Definition}
    (present : module.get? id = some definition) :
    ∃ handle, (engine.revise module).handle id = .ok handle :=
  ⟨_, handle_eq_ok_iff.mpr (dif_pos (List.getElem?_eq_some_iff.mp present).1)⟩

/-! ## Rolling back -/

theorem undefine_pending {module : Module} {id : FuncId}
    (found : pending? module name argCount = some id) : module.undefine id = module := by
  obtain ⟨definition, present, bodiless, -⟩ := pending?_eq_some found
  refine Module.modify_eq_self fun other here => ?_
  rw [present] at here
  cases here
  rw [← bodiless]

theorem undefine_filled {module : Module} {id : FuncId} (code : List Instruction)
    (numLocals : Slot) (found : pending? module name argCount = some id) :
    (module.modify id (Definition.filled code numLocals)).undefine id =
      module.modify id (Definition.resized numLocals) := by
  obtain ⟨definition, present, bodiless, -⟩ := pending?_eq_some found
  rw [Module.undefine, Module.modify_modify]
  refine Module.modify_congr fun other here => ?_
  rw [present] at here
  cases here
  simp [Definition.filled, Definition.resized, bodiless]

theorem textOutcome (engine : Engine) (name source : String) (argCount numLocals : Slot) :
    TextOutcome engine name source argCount numLocals
      (engine.defineText name source argCount numLocals) := by
  unfold defineText
  -- A pending declaration loses its body again; a new one is cut off the end of the table.
  split
  · rename_i id found
    obtain ⟨definition, present, bodiless, -⟩ := pending?_eq_some found
    have body := bodyOutcome present bodiless engine.host source numLocals
    generalize defineBody engine.module engine.host id source numLocals = outcome at body
    cases body with
    | unread refused =>
        dsimp only
        rw [undefine_pending found]
        exact .unread (.pending found) refused
    | rejected assembled failed =>
        dsimp only
        rw [undefine_filled _ numLocals found]
        exact .rejected (.pending found) assembled failed (.pending found)
    | defined assembled passed =>
        obtain ⟨definition, present, -⟩ := Module.get?_of_check passed
        obtain ⟨handle, known⟩ := engine.handle_revise present
        dsimp only
        rw [known]
        exact .defined (.pending found) assembled passed known
  · rename_i new
    rcases Nat.lt_or_ge engine.module.size Module.capacity with room | crowded
    · rw [Module.declare_of_room room]
      dsimp only
      have body := bodyOutcome (Module.get?_append_cons room (.declared name argCount) []) rfl
        engine.host source numLocals
      generalize defineBody _ engine.host _ source numLocals = outcome at body
      cases body with
      | unread refused =>
          dsimp only
          rw [Module.truncate_append]
          exact .unread (.fresh new room) refused
      | rejected assembled failed =>
          dsimp only
          rw [Module.modify_append_cons room, Module.truncate_append]
          exact .rejected (.fresh new room) assembled failed (.fresh new)
      | defined assembled passed =>
          obtain ⟨definition, present, -⟩ := Module.get?_of_check passed
          obtain ⟨handle, known⟩ := engine.handle_revise present
          dsimp only
          rw [known]
          exact .defined (.fresh new room) assembled passed known
    · rw [Module.declare_of_full crowded]
      exact .full new crowded

/-! ## Failed definitions -/

theorem modify_resized_eq_self_iff {module : Module} {id : FuncId} {definition : Definition}
    (present : module.get? id = some definition) (numLocals : Slot) :
    module.modify id (Definition.resized numLocals) = module ↔ definition.numLocals = numLocals := by
  constructor
  · intro same
    have entry : (module.modify id (Definition.resized numLocals)).get? id =
        (module.get? id).map (Definition.resized numLocals) := Module.get?_modify_self _
    rw [same, present, Option.map_some, Option.some.injEq] at entry
    rw [entry]
    rfl
  · rintro rfl
    refine Module.modify_eq_self fun other here => ?_
    rw [present] at here
    cases here
    rfl

/-- A definition that fails leaves globals, callbacks and limits as they were. The module changes
exactly if a pending declaration was to be filled in, the check failed, and the declaration had
another number of locals: it keeps the one that was given. -/
theorem defineText_error_restores {engine after : Engine} {name source : String}
    {argCount numLocals : Slot} {error : EngineError}
    (failed : engine.defineText name source argCount numLocals = (.error error, after)) :
    (after.globals = engine.globals ∧ after.host = engine.host ∧ after.limits = engine.limits) ∧
    (after.module = engine.module ↔
      ¬ ∃ id definition cause, pending? engine.module name argCount = some id ∧
        engine.module.get? id = some definition ∧ definition.numLocals ≠ numLocals ∧
        error = .verify cause) ∧
    ∀ id cause, pending? engine.module name argCount = some id → error = .verify cause →
      after.module = engine.module.modify id (Definition.resized numLocals) := by
  have outcome := engine.textOutcome name source argCount numLocals
  rw [failed] at outcome
  cases outcome with
  | full new crowded => simp [revise, new]
  | unread target refused => simp [revise]
  | rejected target assembled failed left =>
      cases left with
      | fresh new => simp [revise, new]
      | @pending id found =>
          obtain ⟨definition, present, -⟩ := pending?_eq_some found
          have same := modify_resized_eq_self_iff present numLocals
          refine ⟨⟨rfl, rfl, rfl⟩, ⟨?_, ?_⟩, ?_⟩
          · rintro unchanged ⟨other, declared, cause, chosen, here, differs, -⟩
            rw [found] at chosen
            cases chosen
            rw [present] at here
            cases here
            exact differs (same.mp unchanged)
          · intro agrees
            refine same.mpr ?_
            by_contra differs
            exact agrees ⟨id, definition, _, found, present, differs, rfl⟩
          · intro other cause chosen verified
            rw [found] at chosen
            cases chosen
            rfl

/-- An engine with one declaration. -/
def awaiting : Engine :=
  ((Engine.new 0 .unlimited).declare "f" 0).2

theorem defineText_error_restores_awaiting :
    (awaiting.defineText "f" "Q" 0 7).1 = .error (.assembly ⟨0, .invalidOpcode "Q"⟩) ∧
      (awaiting.defineText "f" "Q" 0 7).2.module = awaiting.module := by
  have failed : (awaiting.defineText "f" "Q" 0 7).1 =
      .error (.assembly ⟨0, .invalidOpcode "Q"⟩) := rfl
  obtain ⟨-, unchanged, -⟩ := defineText_error_restores (Prod.ext failed rfl)
  refine ⟨failed, unchanged.mpr ?_⟩
  rintro ⟨id, definition, cause, -, -, -, verified⟩
  cases verified

/-- The second assignment of slot zero is refused, but the seven locals stay. -/
theorem defineText_error_changes_numLocals :
    (awaiting.defineText "f" "Ci0,i1|Ci0,i2|R0" 0 7).1 = .error (.verify (.reassigned 0 0 1)) ∧
      awaiting.module.functions = [⟨some "f", 0, 0, none⟩] ∧
      (awaiting.defineText "f" "Ci0,i1|Ci0,i2|R0" 0 7).2.module.functions =
        [⟨some "f", 0, 7, none⟩] :=
  ⟨rfl, rfl, rfl⟩

end Engine
end RegisterMachine
