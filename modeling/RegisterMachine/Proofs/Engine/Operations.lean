import RegisterMachine.Proofs.Engine.Registration
import RegisterMachine.Proofs.Module.Checked

/-!
Engines under any sequence of operations.

Whatever an engine is asked to do, and whether or not it succeeds, the functions of its module that
have a body pass their checks. So a run is refused only for a function that was declared and never
defined.
-/
set_option autoImplicit false

namespace RegisterMachine.Engine

variable {engine : Engine} {name : String}

/-- What an engine can be asked to do that may change it. -/
inductive Operation where
  | setGlobal (name : String) (value : Value)
  | removeGlobal (name : String)
  | registerCallback (name : String) (callback : Callback)
  | declare (name : String) (argCount : Slot)
  | defineText (name source : String) (argCount numLocals : Slot)
  | define (name : String) (function : Function)
  | loadImage (name : String) (bytes : List UInt8)

/-- The engine after an operation, also if it fails. -/
def perform (engine : Engine) : Operation → Engine
  | .setGlobal name value => (engine.setGlobal name value).2
  | .removeGlobal name => (engine.removeGlobal name).2
  | .registerCallback name callback =>
    match engine.registerCallback name callback with
    | .ok (_, registered) => registered
    | .error _ => engine
  | .declare name argCount => (engine.declare name argCount).2
  | .defineText name source argCount numLocals =>
    (engine.defineText name source argCount numLocals).2
  | .define name function => (engine.define name function).2
  | .loadImage name bytes => (engine.loadImage name bytes).2

/-- A new engine after these operations. -/
def history (owner : Nat) (limits : Limits) (operations : List Operation) : Engine :=
  operations.foldl perform (.new owner limits)

/-! ## One operation -/

theorem module_registerCallback (engine : Engine) (name : String) (callback : Callback) :
    (engine.perform (.registerCallback name callback)).module = engine.module := by
  simp only [perform, registerCallback]
  split
  · rename_i registered outcome
    split at outcome
    · cases outcome
      rfl
    · cases outcome
  · rfl

theorem checked_declare (checked : engine.module.Checked) (name : String) (argCount : Slot) :
    (engine.declare name argCount).2.module.Checked := by
  unfold declare
  rcases Nat.lt_or_ge engine.module.size Module.capacity with room | full
  · rw [Module.declare_of_room room]
    exact checked.revise (.declared room name argCount)
  · rw [Module.declare_of_full full]
    exact checked

theorem TextTarget.checked {module declared : Module} {argCount : Slot} {id : FuncId}
    (target : TextTarget module name argCount id declared) (checked : module.Checked) :
    declared.Checked := by
  cases target with
  | pending found => exact checked
  | fresh new room => exact checked.revise (.declared room name argCount)

theorem checked_defineText (checked : engine.module.Checked) (name source : String)
    (argCount numLocals : Slot) :
    (engine.defineText name source argCount numLocals).2.module.Checked := by
  have outcome := engine.textOutcome name source argCount numLocals
  generalize engine.defineText name source argCount numLocals = result at outcome
  cases outcome with
  | full new crowded => exact checked
  | unread target refused => exact checked
  | rejected target assembled failed left =>
      cases left with
      | fresh new => exact checked
      | pending found => exact checked.revise (.modify (fun _ => rfl) (.inl fun _ => rfl))
  | defined target assembled passed known =>
      exact (target.checked checked).revise (.modify (fun _ => rfl) (.inr passed))

theorem checked_define (checked : engine.module.Checked) (name : String) (function : Function) :
    (engine.define name function).2.module.Checked := by
  have outcome := engine.registration name function
  generalize engine.define name function = result at outcome
  cases outcome with
  | unverified failed => exact checked
  | unbuilt verified failed => exact checked
  | entered verified found room known =>
      have imported := checked.revise (.imported verified found room)
      exact imported.revise (.modify (fun _ => rfl) (.inl fun _ => rfl))

theorem checked_loadImage (checked : engine.module.Checked) (name : String) (bytes : List UInt8) :
    (engine.loadImage name bytes).2.module.Checked := by
  unfold loadImage
  split
  · exact checked
  · exact checked_define checked name _

theorem checked_perform (checked : engine.module.Checked) (operation : Operation) :
    (engine.perform operation).module.Checked := by
  cases operation with
  | setGlobal name value => exact checked
  | removeGlobal name => exact checked
  | registerCallback name callback =>
      rw [module_registerCallback]
      exact checked
  | declare name argCount => exact checked_declare checked name argCount
  | defineText name source argCount numLocals =>
      exact checked_defineText checked name source argCount numLocals
  | define name function => exact checked_define checked name function
  | loadImage name bytes => exact checked_loadImage checked name bytes

/-! ## Any number of operations -/

theorem checked_foldl_perform (checked : engine.module.Checked) (operations : List Operation) :
    (operations.foldl perform engine).module.Checked := by
  induction operations generalizing engine with
  | nil => exact checked
  | cons operation rest ih => exact ih (checked_perform checked operation)

theorem checked_history (owner : Nat) (limits : Limits) (operations : List Operation) :
    (history owner limits operations).module.Checked := by
  refine checked_foldl_perform ⟨Nat.zero_le _, ?_⟩ operations
  intro id definition present
  cases present

/-- A run that is refused in verification was refused for the function that the name stands for. -/
theorem run_eq_verify {fuel : Nat} {args : List Value} {error : VerifyError}
    (refused : (engine.run fuel name args).1 = .error (.verify error)) :
    ∃ function, engine.function? name = some function ∧ function.verifyAll = .error error := by
  cases found : engine.function? name with
  | none => simp [run, lookup, found] at refused
  | some function =>
      rw [run_of_function? found, runFunction] at refused
      split at refused
      · cases refused
        exact ⟨function, rfl, ‹_›⟩
      · split at refused <;> cases refused

theorem module_of_function? {function : Function} (found : engine.function? name = some function) :
    function.module = engine.module := by
  obtain ⟨id, -, known⟩ := Option.bind_eq_some_iff.mp found
  exact (Function.of?_eq_some known).1

/-- After any operations on a new engine, every function has an id, and passes its check if it has a
body. A run can fail verification only because calls lead to a function that is declared and has no
body. -/
theorem history_functions_checked (owner : Nat) (limits : Limits) (operations : List Operation) :
    (history owner limits operations).module.size ≤ Module.capacity ∧
    (∀ id definition, (history owner limits operations).module.get? id = some definition →
      definition.isDefined = true →
      (history owner limits operations).module.check id = .ok ()) ∧
    ∀ fuel name args error,
      ((history owner limits operations).run fuel name args).1 = .error (.verify error) →
      ∃ function id definition,
        (history owner limits operations).function? name = some function ∧
        (history owner limits operations).module.Connected function.id id ∧
        (history owner limits operations).module.get? id = some definition ∧
        definition.isDefined = false ∧ error = .undefined id := by
  have checked := checked_history owner limits operations
  refine ⟨checked.numbered, checked.passes, ?_⟩
  intro fuel name args error refused
  obtain ⟨function, found, failed⟩ := run_eq_verify refused
  have same := module_of_function? found
  rw [← same] at checked
  obtain ⟨id, definition, connected, present, bodiless, named⟩ :=
    function.verifyAll_eq_error checked failed
  rw [same] at connected present
  exact ⟨function, id, definition, found, connected, present, bodiless, named⟩

/-- A function is defined that calls one which is only declared. -/
def unfinished : List Operation :=
  [.declare "f" 0, .defineText "g" "()0,f|R0" 0 1]

theorem history_functions_checked_unfinished :
    (history 0 .unlimited unfinished).module.check ⟨1⟩ = .ok () ∧
    ((history 0 .unlimited unfinished).run 1 "g" []).1 = .error (.verify (.undefined ⟨0⟩)) ∧
    ∃ function, (history 0 .unlimited unfinished).function? "g" = some function ∧
      (history 0 .unlimited unfinished).module.Connected function.id ⟨0⟩ := by
  obtain ⟨-, checked, runs⟩ := history_functions_checked 0 .unlimited unfinished
  have table : (history 0 .unlimited unfinished).module =
      ⟨[.declared "f" 0, ⟨some "g", 0, 1, some [.call 0 ⟨0⟩ [], .leave 0]⟩]⟩ := rfl
  have failed : (history 0 .unlimited unfinished).module.checkReachable ⟨1⟩ =
      .error (.undefined ⟨0⟩) := by
    rw [table]
    cbv
  have entry : (history 0 .unlimited unfinished).function? "g" =
      some ⟨⟨0, 2⟩, (history 0 .unlimited unfinished).module, ⟨1⟩, by decide⟩ := rfl
  have refused : ((history 0 .unlimited unfinished).run 1 "g" []).1 =
      .error (.verify (.undefined ⟨0⟩)) := by
    rw [run_of_function? entry, runFunction, Function.verifyAll]
    dsimp only
    rw [failed]
  refine ⟨checked ⟨1⟩ _ (congrArg (Module.get? · ⟨1⟩) table) rfl, refused, ?_⟩
  obtain ⟨function, id, definition, found, connected, -, -, named⟩ := runs 1 "g" [] _ refused
  cases named
  exact ⟨function, found, connected⟩

end RegisterMachine.Engine
