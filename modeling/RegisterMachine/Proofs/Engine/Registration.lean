import RegisterMachine.Proofs.Engine.Definition

/-!
Registering finished functions, and what their names stand for afterwards.

A function is registered by copying it, with all it calls, to the end of the module. The entry's copy
comes first and gets the new name; the others keep theirs and come after it. So the new name finds
the entry unless one of the others goes by the same name.
-/
set_option autoImplicit false

namespace RegisterMachine

/-- Another function that calls lead to goes by this name. -/
def Function.HasCalleeNamed (function : Function) (name : String) : Prop :=
  ∃ id definition, function.module.Connected function.id id ∧ id ≠ function.id ∧
    function.module.get? id = some definition ∧ definition.name = some name

namespace Function

theorem of?_eq_some {stamp : Stamp} {module : Module} {id : FuncId} {function : Function}
    (known : of? stamp module id = some function) : function.module = module ∧ function.id = id := by
  unfold of? at known
  split at known
  · cases known
    exact ⟨rfl, rfl⟩
  · cases known

/-- The functions that a search finds behind its entry are the others that calls lead to. -/
theorem hasCalleeNamed_iff {function : Function} {callees : List FuncId} {name : String}
    (found : function.module.reachable function.id = .ok (function.id :: callees)) :
    function.HasCalleeNamed name ↔
      ∃ definition ∈ callees.filterMap function.module.get?, definition.name = some name := by
  obtain ⟨distinct, closed, member⟩ := Module.reachable_eq_ok found
  constructor
  · rintro ⟨id, definition, connected, differs, present, named⟩
    rcases List.mem_cons.mp (closed.mem_of_connected member connected) with same | later
    · exact absurd same differs
    · exact ⟨definition, List.mem_filterMap.mpr ⟨id, later, present⟩, named⟩
  · rintro ⟨definition, listed, named⟩
    obtain ⟨id, later, present⟩ := List.mem_filterMap.mp listed
    refine ⟨id, definition, Module.connected_of_mem_reachable found (by simp [later]), ?_, present,
      named⟩
    rintro rfl
    exact (List.nodup_cons.mp distinct).1 later

end Function

namespace Module

/-- The module with the functions `order` of `source` copied to its end, the first under `name`. -/
def entered (module source : Module) (order : List FuncId) (name : String) : Module :=
  rename ⟨module.functions ++ source.copiesOf module.size order⟩ (.ofIndex module.size) name

theorem size_entered_le (module source : Module) (order : List FuncId) (name : String) :
    (module.entered source order name).size ≤ module.size + order.length := by
  have fewer := List.length_filterMap_le source.get? order
  simpa [entered, rename, modify, copiesOf, size] using fewer

section Entered

variable (module : Module) {source : Module} {entry : FuncId} {definition : Definition}
  (callees : List FuncId) (name : String)

/-- The entry's copy under its new name is followed by the copies of the functions it reaches. -/
theorem entered_eq (present : source.get? entry = some definition) (room : module.size < capacity) :
    module.entered source (entry :: callees) name =
      ⟨module.functions ++
        { definition.mapCallees (renumbering module.size (entry :: callees)) with
          name := some name } ::
        (callees.filterMap source.get?).map
          (Definition.mapCallees (renumbering module.size (entry :: callees)))⟩ := by
  rw [entered, rename, copiesOf, List.filterMap_cons_some present, List.map_cons,
    modify_append_cons room]

theorem get?_entered (present : source.get? entry = some definition)
    (room : module.size < capacity) :
    (module.entered source (entry :: callees) name).get? (.ofIndex module.size) =
      some { definition.mapCallees (renumbering module.size (entry :: callees)) with
        name := some name } := by
  rw [entered_eq module callees name present room, get?_append_cons room]

variable {callees name}

theorem lookup_entered_of_absent (present : source.get? entry = some definition)
    (room : module.size < capacity)
    (absent : ∀ callee ∈ callees.filterMap source.get?, callee.name ≠ some name) :
    (module.entered source (entry :: callees) name).lookup name = some (.ofIndex module.size) := by
  rw [entered_eq module callees name present room]
  refine lookup_append_cons_of_absent rfl ?_
  intro copy member
  obtain ⟨callee, listed, rfl⟩ := List.mem_map.mp member
  exact absent callee listed

theorem lookup_entered_of_callee (name : String) {other : String}
    (present : source.get? entry = some definition)
    (room : module.size + (callees.length + 1) ≤ capacity)
    (later : ∃ callee ∈ callees.filterMap source.get?, callee.name = some other) :
    ∃ id, module.size < id.index ∧
      (module.entered source (entry :: callees) name).lookup other = some id := by
  obtain ⟨callee, listed, named⟩ := later
  have copied : ∃ copy ∈ (callees.filterMap source.get?).map
      (Definition.mapCallees (renumbering module.size (entry :: callees))),
      copy.name = some other :=
    ⟨_, List.mem_map_of_mem listed, named⟩
  obtain ⟨index, above, within, found⟩ := lookup_append_cons_of_later copied
  have fewer := List.length_filterMap_le source.get? callees
  rw [List.length_map] at within
  rw [entered_eq module callees name present (by omega)]
  refine ⟨.ofIndex index, ?_, found⟩
  rwa [FuncId.index_ofIndex (by omega)]

theorem lookup_entered_of_later (present : source.get? entry = some definition)
    (room : module.size + (callees.length + 1) ≤ capacity)
    (later : ∃ callee ∈ callees.filterMap source.get?, callee.name = some name) :
    ∃ other, other ≠ .ofIndex module.size ∧
      (module.entered source (entry :: callees) name).lookup name = some other := by
  obtain ⟨id, above, found⟩ := module.lookup_entered_of_callee name present room later
  refine ⟨id, ?_, found⟩
  rintro rfl
  rw [FuncId.index_ofIndex (by omega)] at above
  omega

end Entered

theorem renumbering_entry (base : Nat) (entry : FuncId) (callees : List FuncId) :
    renumbering base (entry :: callees) entry = .ofIndex base := by
  simp [renumbering]

end Module

namespace Engine

variable {engine : Engine} {name : String} {function : Function}

/-- A verified function is registered if there are numbers for it and all that it reaches. -/
theorem define_eq_ok (engine : Engine) (name : String) {callees : List FuncId}
    (verified : function.verifyAll = .ok ())
    (found : function.module.reachable function.id = .ok (function.id :: callees))
    (room : engine.module.size + (callees.length + 1) ≤ Module.capacity) :
    ∃ handle, (engine.revise (engine.module.entered function.module (function.id :: callees)
        name)).handle (.ofIndex engine.module.size) = .ok handle ∧
      engine.define name function = (.ok handle,
        engine.revise (engine.module.entered function.module (function.id :: callees) name)) := by
  have space : engine.module.size < Module.capacity := by omega
  have present := engine.module.get?_entered callees name function.get?_id space
  obtain ⟨handle, known⟩ := engine.handle_revise present
  refine ⟨handle, known, ?_⟩
  rw [define, verified]
  dsimp only
  rw [Module.importFunction_eq_ok found room]
  dsimp only
  rw [Module.renumbering_entry, ← Module.entered, known]

/-- The ways a registration ends. -/
inductive Registration (engine : Engine) (name : String) (function : Function) :
    Except EngineError Function × Engine → Prop
  | unverified {error : VerifyError} (failed : function.verifyAll = .error error) :
      Registration engine name function (.error (.verify error), engine)
  | unbuilt {error : BuildError} (verified : function.verifyAll = .ok ())
      (failed : engine.module.importFunction function = .error error) :
      Registration engine name function (.error (.build error), engine.revise engine.module)
  | entered {callees : List FuncId} {handle : Function} (verified : function.verifyAll = .ok ())
      (found : function.module.reachable function.id = .ok (function.id :: callees))
      (room : engine.module.size + (callees.length + 1) ≤ Module.capacity)
      (known : (engine.revise (engine.module.entered function.module (function.id :: callees)
        name)).handle (.ofIndex engine.module.size) = .ok handle) :
      Registration engine name function (.ok handle,
        engine.revise (engine.module.entered function.module (function.id :: callees) name))

theorem registration (engine : Engine) (name : String) (function : Function) :
    Registration engine name function (engine.define name function) := by
  cases verified : function.verifyAll with
  | error error =>
      rw [define, verified]
      exact .unverified verified
  | ok =>
      cases imported : engine.module.importFunction function with
      | error error =>
          rw [define, verified]
          dsimp only
          rw [imported]
          exact .unbuilt verified imported
      | ok result =>
          obtain ⟨order, found, room, -⟩ := Module.of_importFunction_eq_ok imported
          obtain ⟨callees, rfl⟩ := Module.reachable_eq_cons found
          obtain ⟨handle, known, registered⟩ := engine.define_eq_ok name verified found room
          rw [registered]
          exact .entered verified found room known

theorem function?_of_lookup {id : FuncId} {handle : Function}
    (named : engine.module.lookup name = some id) (known : engine.handle id = .ok handle) :
    engine.function? name = some handle := by
  rw [function?, named]
  exact handle_eq_ok_iff.mp known

/-! ## Names of registered functions -/

/-- What a name stands for once `function` has been registered under it as `handle`: the handle,
unless the function reaches another one of that name. -/
structure Binding (engine : Engine) (name : String) (function handle : Function) : Prop where
  found : ¬ function.HasCalleeNamed name → engine.function? name = some handle
  runs : ¬ function.HasCalleeNamed name → ∀ fuel args,
    engine.run fuel name args = engine.runFunction fuel handle args
  hidden : function.HasCalleeNamed name →
    ∃ other, engine.function? name = some other ∧ other.id ≠ handle.id

theorem run_of_function? {handle : Function} (found : engine.function? name = some handle)
    (fuel : Nat) (args : List Value) :
    engine.run fuel name args = engine.runFunction fuel handle args := by
  simp [run, lookup, found]

theorem binding_of_define {after : Engine} {handle : Function}
    (registered : engine.define name function = (.ok handle, after)) :
    after.Binding name function handle := by
  have outcome := engine.registration name function
  rw [registered] at outcome
  cases outcome with
  | @entered callees _ verified reached room known =>
      -- The entry's copy comes first: the copies behind it are all that can hide the new name.
      have found : ¬ function.HasCalleeNamed name → (engine.revise (engine.module.entered
          function.module (function.id :: callees) name)).function? name = some handle := by
        intro unique
        have absent : ∀ callee ∈ callees.filterMap function.module.get?,
            callee.name ≠ some name := by
          intro callee listed named
          exact unique ((Function.hasCalleeNamed_iff reached).mpr ⟨callee, listed, named⟩)
        have space : engine.module.size < Module.capacity := by omega
        exact function?_of_lookup
          (engine.module.lookup_entered_of_absent function.get?_id space absent) known
      refine ⟨found, fun unique => run_of_function? (found unique), ?_⟩
      intro taken
      have later := (Function.hasCalleeNamed_iff reached).mp taken
      obtain ⟨id, differs, named⟩ :=
        engine.module.lookup_entered_of_later function.get?_id room later
      have numbered := Nat.le_trans
        (engine.module.size_entered_le function.module (function.id :: callees) name) room
      obtain ⟨definition, present, -⟩ := Module.get?_of_lookup numbered named
      obtain ⟨other, there⟩ := engine.handle_revise present
      refine ⟨other, function?_of_lookup named there, ?_⟩
      rw [(Function.of?_eq_some (handle_eq_ok_iff.mp there)).2,
        (Function.of?_eq_some (handle_eq_ok_iff.mp known)).2]
      exact differs

theorem define_of_loadImage {bytes : List UInt8} {after : Engine} {handle : Function}
    (loaded : engine.loadImage name bytes = (.ok handle, after)) :
    ∃ function, Image.decode engine.stamp bytes = .ok function ∧
      engine.define name function = (.ok handle, after) := by
  unfold loadImage at loaded
  split at loaded
  · cases loaded
  · exact ⟨_, ‹_›, loaded⟩

/-- A name under which a function was registered stands for it, and runs it, unless the function
reaches another one of the same name. Then the name stands for another function. The same is true of
the function of an image that was loaded. -/
theorem registered_found_under_name (engine : Engine) (name : String) :
    (∀ function handle after, engine.define name function = (.ok handle, after) →
      after.Binding name function handle) ∧
    ∀ bytes handle after, engine.loadImage name bytes = (.ok handle, after) →
      ∃ function, Image.decode engine.stamp bytes = .ok function ∧
        after.Binding name function handle := by
  constructor
  · intro function handle after registered
    exact binding_of_define registered
  · intro bytes handle after loaded
    obtain ⟨function, decoded, registered⟩ := define_of_loadImage loaded
    exact ⟨function, decoded, binding_of_define registered⟩

/-- The image of `poking`. -/
def pokingImage : List UInt8 :=
  [212, 138, 169, 154, 5, 2, 0, 2, 1, 4, 109, 97, 105, 110, 0, 3, 1, 4, 0, 0, 18, 1, 1, 1, 0, 6, 2,
    0, 19, 2, 1, 4, 112, 111, 107, 101, 1, 1, 1, 3, 11, 1, 18, 3, 0, 1, 19, 1]

theorem reachable_poking :
    Machine.poking.module.reachable Machine.poking.id = .ok [⟨0⟩, ⟨1⟩] := by
  cbv

theorem verifyAll_poking : Machine.poking.verifyAll = .ok () := by
  cbv

theorem define_poking (name : String) :
    ∃ handle, handle.id = ⟨0⟩ ∧ (Engine.new 0 .unlimited).define name Machine.poking = (.ok handle,
      (Engine.new 0 .unlimited).revise
        (Module.empty.entered Machine.poking.module [⟨0⟩, ⟨1⟩] name)) := by
  obtain ⟨handle, known, registered⟩ :=
    define_eq_ok (Engine.new 0 .unlimited) name verifyAll_poking reachable_poking (by decide)
  exact ⟨handle, (Function.of?_eq_some (handle_eq_ok_iff.mp known)).2, registered⟩

theorem decode_pokingImage : Image.decode ⟨0, 0⟩ pokingImage = .ok Machine.poking := by
  have read : Image.read pokingImage = .ok (⟨Image.currentMagic, Image.currentVersion, ⟨0⟩,
      Machine.poking.module.functions⟩, []) := rfl
  have passed : Module.checkReachable ⟨Machine.poking.module.functions⟩ ⟨0⟩ = .ok () :=
    verifyAll_poking
  rw [Image.decode, read]
  simp only [ne_eq, not_true_eq_false, if_false]
  rw [passed]
  rfl

theorem registered_found_under_name_poking :
    (∃ handle after, (Engine.new 0 .unlimited).define "main" Machine.poking = (.ok handle, after) ∧
      after.function? "main" = some handle) ∧
    ∃ handle after, (Engine.new 0 .unlimited).loadImage "main" pokingImage = (.ok handle, after) ∧
      after.function? "main" = some handle := by
  obtain ⟨defined, loaded⟩ := registered_found_under_name (Engine.new 0 .unlimited) "main"
  have unique : ¬ Machine.poking.HasCalleeNamed "main" := by
    rw [Function.hasCalleeNamed_iff reachable_poking]
    decide
  obtain ⟨handle, -, registered⟩ := define_poking "main"
  constructor
  · have binding := defined Machine.poking _ _ registered
    exact ⟨handle, _, registered, binding.found unique⟩
  · have same : (Engine.new 0 .unlimited).loadImage "main" pokingImage =
        (Engine.new 0 .unlimited).define "main" Machine.poking := by
      rw [loadImage, show (Engine.new 0 .unlimited).stamp = ⟨0, 0⟩ from rfl, decode_pokingImage]
    obtain ⟨function, decoded, binding⟩ := loaded pokingImage _ _ (same.trans registered)
    cases decoded.symm.trans decode_pokingImage
    exact ⟨handle, _, same.trans registered, binding.found unique⟩

/-- The second function of `poking` is called `poke`, and comes after the first. -/
theorem registered_hidden_by_callee :
    ∃ handle after other, (Engine.new 0 .unlimited).define "poke" Machine.poking =
        (.ok handle, after) ∧
      handle.id = ⟨0⟩ ∧ after.function? "poke" = some other ∧ other.id = ⟨1⟩ := by
  obtain ⟨handle, first, registered⟩ := define_poking "poke"
  exact ⟨handle, _, _, registered, first, rfl, rfl⟩

end Engine
end RegisterMachine
