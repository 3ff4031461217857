import RegisterMachine.Proofs.Engine.Persistence
import RegisterMachine.Proofs.Image.Canonical

/-!
Functions that move to another engine as images.

On its way a function is renumbered three times: to places in the image, as the image is read, and
as its functions are appended to the other engine's module. Each time it is verified with the same
outcome, and what comes out runs in lockstep with what went in. So the function that arrives runs as
the one that was saved, as long as the engines offer the same callbacks, globals and limits.
-/
set_option autoImplicit false

namespace RegisterMachine

/-- Two runs that have come to the same result, with the same values on the stack, after the same
number of steps and with the same text printed. -/
structure Machine.SameRun {α : Type} (run other : α × Machine) : Prop where
  result : other.1 = run.1
  stack : other.2.stack = run.2.stack
  steps : other.2.steps = run.2.steps
  output : other.2.output = run.2.output

namespace Machine.SameRun

variable {α β : Type} {first second third : α × Machine}

theorem trans (left : SameRun first second) (right : SameRun second third) :
    SameRun first third where
  result := right.result.trans left.result
  stack := right.stack.trans left.stack
  steps := right.steps.trans left.steps
  output := right.output.trans left.output

theorem map (same : SameRun first second) (change : α → β) :
    SameRun (first.map change id) (second.map change id) :=
  ⟨congrArg change same.result, same.stack, same.steps, same.output⟩

end Machine.SameRun

namespace Embedding

theorem Agree.sameRun {embedding : Embedding} {outcome copied : Status × Machine}
    (agree : embedding.Agree outcome copied) : Machine.SameRun outcome copied :=
  ⟨agree.status, agree.lockstep.stack, agree.lockstep.steps, agree.lockstep.output⟩

/-- Names play no part in a run. -/
def renamed (embedding : Embedding) (id : FuncId) (name : String) : Embedding where
  source := embedding.source
  target := embedding.target.rename id name
  rename := embedding.rename
  covers := embedding.covers
  copies := by
    intro other covered
    obtain ⟨original, copied, here, there, mirrors⟩ := embedding.copies other covered
    by_cases same : id = embedding.rename other
    · refine ⟨original, { copied with name := some name }, here, ?_, mirrors.argCount,
        mirrors.numLocals, mirrors.code⟩
      rw [Module.rename, same, Module.get?_modify_self, there]
      rfl
    · refine ⟨original, copied, here, ?_, mirrors⟩
      rwa [Module.rename, Module.get?_modify_of_ne same]
  closed := embedding.closed

end Embedding

/-- The second function passes verification, and runs as the first in any surroundings. -/
structure Function.Replica (function copied : Function) : Prop where
  verified : copied.verifyAll = .ok ()
  runs : ∀ env fuel before args, Machine.SameRun
    (Machine.interpret env fuel before function args)
    (Machine.interpret env fuel before copied args)

theorem Function.Replica.trans {first second third : Function} (left : first.Replica second)
    (right : second.Replica third) : first.Replica third where
  verified := right.verified
  runs env fuel before args := (left.runs env fuel before args).trans (right.runs env fuel before args)

theorem Embedding.Relates.replica {embedding : Embedding} {function copied : Function}
    (relates : embedding.Relates function copied) (verified : copied.verifyAll = .ok ()) :
    function.Replica copied where
  verified := verified
  runs env fuel before args := (relates.interpret env fuel before args).sameRun

namespace Image

variable {function : Function}

/-- A verified function can be encoded, and its bytes decode to a replica that reaches no more
functions than there were. -/
theorem exists_decoded (verified : function.verifyAll = .ok ())
    (numbered : function.module.size ≤ Module.capacity)
    (addressable : ∀ definition ∈ function.module.functions, definition.Addressable) :
    ∃ bytes, encode function = .ok bytes ∧ ∀ stamp, ∃ decoded order,
      decode stamp bytes = .ok decoded ∧ function.Replica decoded ∧
      decoded.module.reachable decoded.id = .ok order ∧ order.length ≤ function.module.size := by
  obtain ⟨order, found⟩ := Module.exists_reachable_of_checkReachable verified
  obtain ⟨distinct, closed, member⟩ := Module.reachable_eq_ok found
  refine ⟨_, encode_of_reachable found numbered, ?_⟩
  intro stamp
  obtain ⟨decoded, success, accepted, entry, copied⟩ :=
    decode_eq_copied found verified numbered addressable stamp
  have relates : copied.embedding.Relates function decoded := ⟨rfl, rfl, member, entry⟩
  refine ⟨decoded, order.map (place order), success, relates.replica accepted, ?_, ?_⟩
  · rw [entry, copied.reachable member, found]
    rfl
  · rw [List.length_map]
    exact closed.length_le_size distinct

end Image

namespace Engine

variable {engine other : Engine}

/-- Engines that offer the same to the functions they run, whatever functions they have. -/
structure SameSurroundings (engine other : Engine) : Prop where
  callbacks : ∀ id, other.host.get? id = engine.host.get? id
  globals : ∀ name : String, other.globals[name]? = engine.globals[name]?
  limits : other.limits = engine.limits

namespace SameSurroundings

theorem revise (same : engine.SameSurroundings other) (module : Module) :
    engine.SameSurroundings (other.revise module) :=
  ⟨same.callbacks, same.globals, same.limits⟩

theorem widened (same : engine.SameSurroundings other) :
    engine.environment.Widened (fun _ => False) other.environment where
  globals := congrArg some (Std.ExtTreeMap.ext_getElem? same.globals)
  host := .some fun id invocation => .inl (by simp only [Registry.invoke, same.callbacks])
  depth frames := .inl (by simp only [environment, same.limits])
  stack stack := .inl (by simp only [environment, same.limits])

theorem interpret (same : engine.SameSurroundings other) (fuel : Nat) (before : Machine)
    (function : Function) (args : List Value) :
    before.interpret other.environment fuel function args =
      before.interpret engine.environment fuel function args := by
  have allowed : ∀ count ≤ fuel, AgreesUnless (fun _ => False)
      (engine.environment.limits.checkSteps count) (other.environment.limits.checkSteps count) := by
    intro count bound
    simp only [environment, same.limits]
    exact .refl _
  have follows := Machine.follows_interpret same.widened allowed before before function args
  generalize before.interpret engine.environment fuel function args = outcome at follows ⊢
  generalize before.interpret other.environment fuel function args = outcome' at follows ⊢
  cases follows with
  | lacking lacked => exact lacked.elim
  | alike twins => rw [twins.eq]

theorem runFunction (same : engine.SameSurroundings other) {function copied : Function}
    (verified : function.verifyAll = .ok ()) (replica : function.Replica copied) (fuel : Nat)
    (args : List Value) :
    Machine.SameRun (engine.runFunction fuel function args)
      (other.runFunction fuel copied args) := by
  rw [runFunction_eq_of_verified verified, runFunction_eq_of_verified replica.verified,
    same.interpret]
  exact (replica.runs engine.environment fuel .idle args).map resultOf

end SameSurroundings

theorem exists_registered (engine : Engine) (name : String) {function : Function}
    {order : List FuncId} (verified : function.verifyAll = .ok ())
    (found : function.module.reachable function.id = .ok order)
    (room : engine.module.size + order.length ≤ Module.capacity) :
    ∃ handle module, engine.define name function = (.ok handle, engine.revise module) ∧
      function.Replica handle := by
  obtain ⟨-, closed, member⟩ := Module.reachable_eq_ok found
  obtain ⟨callees, rfl⟩ := Module.reachable_eq_cons found
  obtain ⟨handle, known, registered⟩ := engine.define_eq_ok name verified found room
  obtain ⟨inside, entry⟩ := Function.of?_eq_some (handle_eq_ok_iff.mp known)
  have copied := Module.Copied.of_import closed room
  rw [← Module.renumbering_entry _ function.id callees] at entry
  -- The copies pass where they are appended, and go on passing under another name.
  have passed := copied.checkReachable_eq_ok member verified
  have accepted : handle.verifyAll = .ok () := by
    rw [Function.verifyAll, inside, entry]
    exact (Module.KeepsBodies.rename _ _ name).checkFrom passed
  have relates : (copied.embedding.renamed (.ofIndex engine.module.size) name).Relates function
      handle := ⟨rfl, inside, member, entry⟩
  exact ⟨handle, _, registered, relates.replica accepted⟩

/-- A function that passes verification can be saved, and its image can be loaded, under any name,
into an engine with room for it. If the engines have the same callbacks, globals and limits, the
function that was loaded runs there as the name runs in the first engine: after every number of
steps the runs have come to the same result. -/
theorem loaded_image_runs_alike {engine other : Engine} {name : String} {function : Function}
    (found : engine.function? name = some function) (verified : function.verifyAll = .ok ())
    (same : engine.SameSurroundings other)
    (room : engine.module.size + other.module.size ≤ Module.capacity)
    (addressable : ∀ definition ∈ engine.module.functions, definition.Addressable) :
    ∃ bytes, engine.saveImage name = .ok bytes ∧
      ∀ newName, ∃ handle after, other.loadImage newName bytes = (.ok handle, after) ∧
        ∀ fuel args, Machine.SameRun (engine.run fuel name args)
          (after.runFunction fuel handle args) := by
  have source := module_of_function? found
  rw [← source] at room addressable
  obtain ⟨bytes, encoded, decodes⟩ :=
    Image.exists_decoded verified (by omega) addressable
  have saved : engine.saveImage name = .ok bytes := by
    simp [saveImage, lookup, found, encoded, bind, Except.bind]
  refine ⟨bytes, saved, ?_⟩
  intro newName
  obtain ⟨decoded, order, success, arrived, search, few⟩ := decodes other.stamp
  obtain ⟨handle, module, registered, entered⟩ :=
    other.exists_registered newName arrived.verified search (by omega)
  have loaded : other.loadImage newName bytes = (.ok handle, other.revise module) := by
    rw [loadImage, success]
    exact registered
  refine ⟨handle, _, loaded, ?_⟩
  intro fuel args
  rw [run_of_function? found]
  exact (same.revise module).runFunction verified (arrived.trans entered) fuel args

/-- A callback that answers with a global variable. -/
def recalling : Callback := fun invocation =>
  ⟨(invocation.global? "b").getD .null, []⟩

/-- The second function calls the first, which invokes the callback. -/
def asking : Engine :=
  history 0 .unlimited [.setGlobal "a" (.int32 3), .setGlobal "b" (.int32 4),
    .registerCallback "recall" recalling, .defineText "f" "C0,erecall|X1,0|R1" 0 2,
    .defineText "g" "()0,f|R0" 0 1]

/-- An engine with a function of its own, and with the same globals set in another order. -/
def elsewhere : Engine :=
  history 1 .unlimited [.setGlobal "c" .null, .setGlobal "b" (.int32 4),
    .defineText "f" "Ci0,i7|R0" 0 1, .registerCallback "remember" recalling,
    .setGlobal "a" (.int32 3), .removeGlobal "c"]

theorem sameSurroundings_elsewhere : asking.SameSurroundings elsewhere where
  callbacks id := by
    have there : elsewhere.host.callbacks = [("remember", recalling)] := rfl
    have here : asking.host.callbacks = [("recall", recalling)] := rfl
    simp only [Registry.get?, there, here, ← List.getElem?_map]
    rfl
  globals name := by
    have there : elsewhere.globals = ((((∅ : Globals).insert "c" .null).insert "b"
      (.int32 4)).insert "a" (.int32 3)).erase "c" := rfl
    have here : asking.globals = ((∅ : Globals).insert "a" (.int32 3)).insert "b" (.int32 4) := rfl
    rw [there, here]
    simp only [Std.ExtTreeMap.getElem?_insert, Std.ExtTreeMap.getElem?_erase]
    grind
  limits := rfl

/-- The second function of `asking` arrives with the first, under a name that was taken, and finds
the callback and the global there. -/
theorem loaded_image_runs_alike_asking :
    asking.SameSurroundings elsewhere ∧
    ∃ bytes handle after, asking.saveImage "g" = .ok bytes ∧
      elsewhere.loadImage "f" bytes = (.ok handle, after) ∧
      (after.runFunction 5 handle []).1 = .ok (some (.int32 4)) ∧
      (after.runFunction 5 handle []).2.steps = 5 := by
  have table : asking.module =
      ⟨[⟨some "f", 0, 2, some [.constant 0 (.ofCallback 0), .execute 1 0 [], .leave 1]⟩,
        ⟨some "g", 0, 1, some [.call 0 ⟨0⟩ [], .leave 0]⟩]⟩ := rfl
  have found : asking.function? "g" = some ⟨⟨0, 2⟩, asking.module, ⟨1⟩, by decide⟩ := rfl
  have complete : asking.module.checkReachable ⟨1⟩ = .ok () := by
    rw [table]
    cbv
  have verified : Function.verifyAll ⟨⟨0, 2⟩, asking.module, ⟨1⟩, by decide⟩ = .ok () := complete
  have addressable : ∀ definition ∈ asking.module.functions, definition.Addressable := by
    rw [table]
    decide
  obtain ⟨bytes, saved, loads⟩ := loaded_image_runs_alike found verified
    sameSurroundings_elsewhere (by decide) addressable
  obtain ⟨handle, after, loaded, runs⟩ := loads "f"
  have same := runs 5 []
  rw [run_of_function? found, runFunction_eq_of_verified verified] at same
  exact ⟨sameSurroundings_elsewhere, bytes, handle, after, saved, loaded, same.result.trans rfl,
    same.steps.trans rfl⟩

end Engine
end RegisterMachine
