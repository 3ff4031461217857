import RegisterMachine.Proofs.Engine.Operations
import RegisterMachine.Proofs.Image.RoundTrip

/-!
Names that pass to other functions.

A name stands for the last function that has it. A function that is registered brings its callees
with it, so their names pass to the copies, as the given name passes to the entry. A declaration can
be filled in only while its name stands for it: once a later function has the name, a definition
goes to a new function, also if the later one takes other arguments.
-/
set_option autoImplicit false

namespace RegisterMachine

theorem Function.callee?_of_of? {stamp : Stamp} {module : Module} {caller : FuncId}
    {function : Function} (known : of? stamp module caller = some function) (id : FuncId) :
    function.callee? id = of? stamp module id := by
  unfold of? at known
  split at known
  · cases known
    rfl
  · cases known

namespace Module

variable (module : Module) {source : Module} {entry : FuncId} {definition : Definition}
  {callees : List FuncId} {name other : String}

theorem prefix_entered (present : source.get? entry = some definition)
    (room : module.size < capacity) :
    module.functions <+: (module.entered source (entry :: callees) name).functions := by
  rw [module.entered_eq callees name present room]
  exact List.prefix_append _ _

theorem lookup_entered_of_ne (present : source.get? entry = some definition)
    (room : module.size < capacity) (differs : other ≠ name)
    (absent : ∀ callee ∈ callees.filterMap source.get?, callee.name ≠ some other) :
    (module.entered source (entry :: callees) name).lookup other = module.lookup other := by
  rw [module.entered_eq callees name present room]
  apply lookup_append_of_absent
  intro added member
  rcases List.mem_cons.mp member with rfl | copied
  · intro same
    exact differs (Option.some.inj same).symm
  · obtain ⟨callee, listed, rfl⟩ := List.mem_map.mp copied
    exact absent callee listed

/-- The function `id` has this name and this number of arguments and no body, and it is the only one
with this name and number. -/
structure SoleDeclaration (module : Module) (name : String) (argCount : Slot) (id : FuncId) :
    Prop where
  declared : ∃ definition, module.get? id = some definition ∧ definition.name = some name ∧
    definition.argCount = argCount ∧ definition.body = none
  sole : ∀ other definition, module.get? other = some definition →
    definition.name = some name → definition.argCount = argCount → other = id

end Module

namespace Engine

variable {engine : Engine} {name : String} {function : Function}

/-! ## Registered functions -/

theorem map_id_function? (engine : Engine) (name : String) :
    (engine.function? name).map Function.id = engine.module.lookup name := by
  cases named : engine.module.lookup name with
  | none => simp [function?, named]
  | some id =>
      obtain ⟨index, last, rfl⟩ := Option.map_eq_some_iff.mp named
      obtain ⟨definition, here, -⟩ := getElem?_lastIndex? last
      have inside : index < engine.module.functions.length := (List.getElem?_eq_some_iff.mp here).1
      have number : (FuncId.ofIndex index).index ≤ index := by
        simp [FuncId.ofIndex, FuncId.index, Nat.mod_le]
      have known : Function.of? engine.stamp engine.module (.ofIndex index) =
          some ⟨engine.stamp, engine.module, .ofIndex index, by omega⟩ := dif_pos (by omega)
      simp [function?, named, known]

/-- What is left of an engine's module after `function` has been registered under `name`: all its
functions, and all other names but those of the functions that came along. -/
structure Keeps (engine after : Engine) (name : String) (function : Function) : Prop where
  functions : engine.module.functions <+: after.module.functions
  names : ∀ other, other ≠ name → ¬ function.HasCalleeNamed other →
    after.module.lookup other = engine.module.lookup other ∧
    (after.function? other).map Function.id = (engine.function? other).map Function.id
  taken : ∀ other, other ≠ name → function.HasCalleeNamed other →
    ∃ callee, after.function? other = some callee ∧ engine.module.size < callee.id.index

theorem keeps_of_define {after : Engine} {handle : Function}
    (registered : engine.define name function = (.ok handle, after)) :
    engine.Keeps after name function := by
  have outcome := engine.registration name function
  rw [registered] at outcome
  cases outcome with
  | @entered callees _ verified reached room known =>
      have space : engine.module.size < Module.capacity := by omega
      refine ⟨engine.module.prefix_entered function.get?_id space, ?_, ?_⟩
      · intro other differs unique
        have absent : ∀ callee ∈ callees.filterMap function.module.get?,
            callee.name ≠ some other := by
          intro callee listed named
          exact unique ((Function.hasCalleeNamed_iff reached).mpr ⟨callee, listed, named⟩)
        have same := engine.module.lookup_entered_of_ne function.get?_id space differs absent
        rw [map_id_function?, map_id_function?]
        exact ⟨same, same⟩
      · intro other differs taken
        have later := (Function.hasCalleeNamed_iff reached).mp taken
        obtain ⟨id, above, named⟩ :=
          engine.module.lookup_entered_of_callee name function.get?_id room later
        have found := (map_id_function? (engine.revise (engine.module.entered function.module
          (function.id :: callees) name)) other).trans named
        obtain ⟨callee, there, rfl⟩ := Option.map_eq_some_iff.mp found
        exact ⟨callee, there, above⟩

theorem module_of_define_error {error : EngineError} {after : Engine}
    (failed : engine.define name function = (.error error, after)) :
    after.module = engine.module := by
  have outcome := engine.registration name function
  rw [failed] at outcome
  cases outcome with
  | unverified refused => rfl
  | unbuilt verified refused => rfl

theorem module_of_loadImage_error {bytes : List UInt8} {error : EngineError} {after : Engine}
    (failed : engine.loadImage name bytes = (.error error, after)) :
    after.module = engine.module := by
  unfold loadImage at failed
  split at failed
  · cases failed
    rfl
  · exact module_of_define_error failed

/-- A registration that fails leaves the module as it was. One that succeeds keeps all functions,
and every other name goes on to stand for what it stood for, unless the function reaches another one
of that name. Then the name stands for a copy that was just made. Loading an image does the same. -/
theorem registration_keeps_other_names (engine : Engine) (name : String) :
    (∀ function after,
      (∀ handle, engine.define name function = (.ok handle, after) →
        engine.Keeps after name function) ∧
      ∀ error, engine.define name function = (.error error, after) →
        after.module = engine.module) ∧
    ∀ bytes after,
      (∀ handle, engine.loadImage name bytes = (.ok handle, after) →
        ∃ function, Image.decode engine.stamp bytes = .ok function ∧
          engine.Keeps after name function) ∧
      ∀ error, engine.loadImage name bytes = (.error error, after) →
        after.module = engine.module := by
  constructor
  · intro function after
    exact ⟨fun handle => keeps_of_define, fun error => module_of_define_error⟩
  · intro bytes after
    constructor
    · intro handle loaded
      obtain ⟨function, decoded, registered⟩ := define_of_loadImage loaded
      exact ⟨function, decoded, keeps_of_define registered⟩
    · intro error failed
      exact module_of_loadImage_error failed

/-- An engine that has a function called `poke` already. -/
def housed : Engine :=
  ((Engine.new 0 .unlimited).defineText "poke" "R0" 1 0).2

theorem define_housed (name : String) :
    ∃ handle, housed.define name Machine.poking = (.ok handle,
      housed.revise (housed.module.entered Machine.poking.module [⟨0⟩, ⟨1⟩] name)) := by
  obtain ⟨handle, -, registered⟩ :=
    define_eq_ok housed name verifyAll_poking reachable_poking (by decide)
  exact ⟨handle, registered⟩

theorem loadImage_pokingImage (name : String) :
    (Engine.new 0 .unlimited).loadImage name pokingImage =
      (Engine.new 0 .unlimited).define name Machine.poking := by
  rw [loadImage, show (Engine.new 0 .unlimited).stamp = ⟨0, 0⟩ from rfl, decode_pokingImage]

theorem registration_keeps_other_names_housed :
    (∃ handle after, housed.define "entry" Machine.poking = (.ok handle, after) ∧
      after.module.lookup "main" = none ∧
      ∃ callee, after.function? "poke" = some callee ∧ housed.module.size < callee.id.index) ∧
    (∃ error after, housed.define "entry" Image.waiting = (.error error, after) ∧
      after.module = housed.module) ∧
    (∃ handle after, (Engine.new 0 .unlimited).loadImage "entry" pokingImage = (.ok handle, after) ∧
      after.module.lookup "main" = none) ∧
    ∃ error after, housed.loadImage "entry" [] = (.error error, after) ∧
      after.module = housed.module := by
  obtain ⟨defined, loaded⟩ := registration_keeps_other_names housed "entry"
  have main : ¬ Machine.poking.HasCalleeNamed "main" := by
    rw [Function.hasCalleeNamed_iff reachable_poking]
    decide
  have poke : Machine.poking.HasCalleeNamed "poke" := by
    rw [Function.hasCalleeNamed_iff reachable_poking]
    decide
  refine ⟨?_, ?_, ?_, ?_⟩
  · obtain ⟨handle, registered⟩ := define_housed "entry"
    have keeps := (defined Machine.poking _).1 handle registered
    exact ⟨handle, _, registered, (keeps.names "main" (by decide) main).1,
      keeps.taken "poke" (by decide) poke⟩
  · have refused : Image.waiting.verifyAll = .error (.undefined ⟨0⟩) := by cbv
    have failed : housed.define "entry" Image.waiting =
        (.error (.verify (.undefined ⟨0⟩)), housed) := by
      rw [define, refused]
    exact ⟨_, _, failed, (defined Image.waiting _).2 _ failed⟩
  · obtain ⟨handle, -, registered⟩ := define_poking "entry"
    have success := (loadImage_pokingImage "entry").trans registered
    obtain ⟨function, decoded, keeps⟩ :=
      ((registration_keeps_other_names (Engine.new 0 .unlimited) "entry").2 pokingImage _).1 handle
        success
    cases decoded.symm.trans decode_pokingImage
    exact ⟨handle, _, success, (keeps.names "main" (by decide) main).1⟩
  · have failed : (housed.loadImage "entry" []).1 = .error (.image (.malformed .unexpectedEnd)) :=
      rfl
    exact ⟨_, _, Prod.ext failed rfl, (loaded [] _).2 _ (Prod.ext failed rfl)⟩

/-- Only `entry` was to be bound, but `poke` passes to the function that came with it. -/
theorem registration_rebinds_callee_name :
    housed.module.lookup "poke" = some ⟨0⟩ ∧
    ∃ handle after, housed.define "entry" Machine.poking = (.ok handle, after) ∧
      after.module.lookup "poke" = some ⟨2⟩ := by
  obtain ⟨handle, registered⟩ := define_housed "entry"
  exact ⟨rfl, handle, _, registered, rfl⟩

/-! ## Declared functions -/

section Declarations

variable {module : Module} {argCount : Slot} {id : FuncId}

theorem pending?_eq_some_iff :
    pending? module name argCount = some id ↔ module.lookup name = some id ∧
      ∃ definition, module.get? id = some definition ∧ definition.argCount = argCount ∧
        definition.body = none := by
  constructor
  · intro found
    obtain ⟨definition, present, bodiless, arguments⟩ := pending?_eq_some found
    simp only [pending?, Option.bind_eq_bind, Option.bind_eq_some_iff] at found
    obtain ⟨named, standing, other, -, chosen⟩ := found
    split at chosen
    · cases chosen
      exact ⟨standing, definition, present, arguments, bodiless⟩
    · cases chosen
  · rintro ⟨standing, definition, present, arguments, bodiless⟩
    simp [pending?, standing, present, Definition.isDefined, arguments, bodiless]

/-- A declaration waits to be filled in until a later function has its name. -/
theorem pending?_eq_some_iff_not_overtaken (numbered : module.size ≤ Module.capacity)
    (only : module.SoleDeclaration name argCount id) :
    pending? module name argCount = some id ↔ ¬ module.Overtaken id name := by
  obtain ⟨definition, present, named, arguments, bodiless⟩ := only.declared
  rw [pending?_eq_some_iff, Module.lookup_eq_some_iff numbered present named]
  constructor
  · exact fun found => found.1
  · intro latest
    exact ⟨latest, definition, present, arguments, bodiless⟩

theorem pending?_eq_none_of_overtaken (numbered : module.size ≤ Module.capacity)
    (only : module.SoleDeclaration name argCount id) (overtaken : module.Overtaken id name) :
    pending? module name argCount = none := by
  cases found : pending? module name argCount with
  | none => rfl
  | some other =>
      obtain ⟨standing, definition, present, arguments, -⟩ := pending?_eq_some_iff.mp found
      obtain ⟨same, here, named⟩ := Module.get?_of_lookup numbered standing
      rw [present] at here
      cases here
      rw [only.sole other definition present named arguments] at found
      exact absurd overtaken ((pending?_eq_some_iff_not_overtaken numbered only).mp found)

end Declarations

/-- The function `id` has been given the body that `source` describes. It is the function `handle`,
all others are as they were, and calls of `id` from any of them enter it. -/
structure FilledIn (engine after : Engine) (source : String) (numLocals : Slot) (id : FuncId)
    (handle : Function) : Prop where
  number : handle.id = id
  code : Scope.assemble ⟨some engine.module, some engine.host⟩ source = .ok handle.code
  numLocals : handle.numLocals = numLocals
  others : ∀ other, other ≠ id → after.module.get? other = engine.module.get? other
  calls : ∀ caller function, Function.of? after.stamp after.module caller = some function →
    function.callee? id = some handle

section Filling

variable {source : String} {argCount numLocals : Slot} {handle : Function} {after : Engine}
  {id : FuncId}

theorem filledIn_of_pending? (found : pending? engine.module name argCount = some id)
    (success : engine.defineText name source argCount numLocals = (.ok handle, after)) :
    engine.FilledIn after source numLocals id handle := by
  have outcome := engine.textOutcome name source argCount numLocals
  rw [success] at outcome
  cases outcome with
  | @defined target declared code _ aim assembled passed known =>
      cases aim with
      | fresh new room =>
          rw [found] at new
          cases new
      | pending chosen =>
          rw [found] at chosen
          cases chosen
          obtain ⟨definition, present, -⟩ := pending?_eq_some found
          have entry := handle_eq_ok_iff.mp known
          obtain ⟨inside, number⟩ := Function.of?_eq_some entry
          have filled : handle.definition = definition.filled code numLocals := by
            have there := handle.get?_id
            rw [inside, number] at there
            refine Option.some.inj (there.symm.trans ?_)
            exact (Module.get?_modify_self _).trans (by rw [present]; rfl)
          refine ⟨number, ?_, ?_, ?_, ?_⟩
          · rw [assembled, Function.code, filled]
            rfl
          · rw [Function.numLocals, filled]
            rfl
          · intro other differs
            exact Module.get?_modify_of_ne differs.symm _
          · intro caller function there
            rw [Function.callee?_of_of? there]
            exact entry

theorem kept_of_pending?_eq_none {definition : Definition}
    (new : pending? engine.module name argCount = none)
    (present : engine.module.get? id = some definition)
    (success : engine.defineText name source argCount numLocals = (.ok handle, after)) :
    handle.id = .ofIndex engine.module.size ∧ handle.id ≠ id ∧
      after.module.get? id = some definition := by
  have outcome := engine.textOutcome name source argCount numLocals
  rw [success] at outcome
  cases outcome with
  | @defined target declared code _ aim assembled passed known =>
      cases aim with
      | pending found =>
          rw [new] at found
          cases found
      | fresh _ room =>
          obtain ⟨-, number⟩ := Function.of?_eq_some (handle_eq_ok_iff.mp known)
          have differs : FuncId.ofIndex engine.module.size ≠ id := by
            rintro rfl
            have inside := (List.getElem?_eq_some_iff.mp present).1
            rw [FuncId.index_ofIndex room] at inside
            exact Nat.lt_irrefl _ inside
          refine ⟨number, number ▸ differs, ?_⟩
          exact (Module.get?_modify_of_ne differs _).trans (Module.get?_append _ present)

end Filling

/-- After any operations on a new engine, take the only function of a name and a number of arguments,
and let it have no body. A definition with this name and number that succeeds fills it in, unless a
later function has taken the name, with whatever arguments. Then the definition makes a new function,
and the declaration stays as it was. -/
theorem declaration_filled_unless_overtaken (owner : Nat) (limits : Limits)
    (operations : List Operation) {name source : String} {argCount numLocals : Slot} {id : FuncId}
    {handle : Function} {after : Engine}
    (only : (history owner limits operations).module.SoleDeclaration name argCount id)
    (success : (history owner limits operations).defineText name source argCount numLocals =
      (.ok handle, after)) :
    (¬ (history owner limits operations).module.Overtaken id name →
      (history owner limits operations).FilledIn after source numLocals id handle) ∧
    ((history owner limits operations).module.Overtaken id name →
      handle.id = .ofIndex (history owner limits operations).module.size ∧ handle.id ≠ id ∧
        after.module.get? id = (history owner limits operations).module.get? id) := by
  have numbered := (checked_history owner limits operations).numbered
  constructor
  · intro latest
    exact filledIn_of_pending? ((pending?_eq_some_iff_not_overtaken numbered only).mpr latest)
      success
  · intro overtaken
    obtain ⟨definition, present, -⟩ := only.declared
    rw [present]
    exact kept_of_pending?_eq_none (pending?_eq_none_of_overtaken numbered only overtaken) present
      success

/-- The declaration that `unfinished` leaves open is filled in. -/
theorem declaration_filled_unless_overtaken_unfinished :
    (history 0 .unlimited unfinished).module.SoleDeclaration "f" 0 ⟨0⟩ ∧
    ∃ handle after, (history 0 .unlimited unfinished).defineText "f" "Ci0,i1|R0" 0 1 =
        (.ok handle, after) ∧
      (history 0 .unlimited unfinished).FilledIn after "Ci0,i1|R0" 1 ⟨0⟩ handle := by
  have table : (history 0 .unlimited unfinished).module =
      ⟨[.declared "f" 0, ⟨some "g", 0, 1, some [.call 0 ⟨0⟩ [], .leave 0]⟩]⟩ := rfl
  have called : ∀ other definition,
      (history 0 .unlimited unfinished).module.get? other = some definition →
      definition.name = some "f" → other = ⟨0⟩ := by
    rw [table]
    intro other definition present named
    have member : other ∈ [⟨0⟩, ⟨1⟩] := Module.mem_ids_of_get?_eq_some present
    rcases List.mem_pair.mp member with rfl | rfl
    · rfl
    · cases present
      simp at named
  have only : (history 0 .unlimited unfinished).module.SoleDeclaration "f" 0 ⟨0⟩ :=
    ⟨⟨_, rfl, rfl, rfl, rfl⟩, fun other definition present named _ =>
      called other definition present named⟩
  have latest : ¬ (history 0 .unlimited unfinished).module.Overtaken ⟨0⟩ "f" := by
    rintro ⟨later, definition, beyond, present, named⟩
    rw [called later definition present named] at beyond
    exact Nat.lt_irrefl _ beyond
  obtain ⟨handle, after, success⟩ : ∃ handle after,
      (history 0 .unlimited unfinished).defineText "f" "Ci0,i1|R0" 0 1 = (.ok handle, after) :=
    ⟨_, _, rfl⟩
  have outcome := declaration_filled_unless_overtaken 0 .unlimited unfinished only success
  exact ⟨only, handle, after, success, outcome.1 latest⟩

/-- After `unfinished`, the name `f` passes to a function with one argument. -/
def passedOn : List Operation :=
  unfinished ++ [.declare "f" 1]

/-- A body for the first `f` goes to a new function, and `g` still calls one that has none. -/
theorem declaration_left_behind :
    (history 0 .unlimited passedOn).module.SoleDeclaration "f" 0 ⟨0⟩ ∧
    ∃ handle after, (history 0 .unlimited passedOn).defineText "f" "Ci0,i1|R0" 0 1 =
        (.ok handle, after) ∧
      handle.id = ⟨3⟩ ∧ after.module.get? ⟨0⟩ = some (.declared "f" 0) ∧
      (after.run 4 "g" []).1 = .error (.verify (.undefined ⟨0⟩)) := by
  have table : (history 0 .unlimited passedOn).module =
      ⟨[.declared "f" 0, ⟨some "g", 0, 1, some [.call 0 ⟨0⟩ [], .leave 0]⟩, .declared "f" 1]⟩ := rfl
  have only : (history 0 .unlimited passedOn).module.SoleDeclaration "f" 0 ⟨0⟩ := by
    refine ⟨⟨_, rfl, rfl, rfl, rfl⟩, ?_⟩
    rw [table]
    intro other definition present named arguments
    have member : other ∈ [⟨0⟩, ⟨1⟩, ⟨2⟩] := Module.mem_ids_of_get?_eq_some present
    simp only [List.mem_cons, List.not_mem_nil, or_false] at member
    rcases member with rfl | rfl | rfl
    · rfl
    · cases present
      simp at named
    · cases present
      cases arguments
  have refused : Module.checkReachable ⟨[.declared "f" 0,
      ⟨some "g", 0, 1, some [.call 0 ⟨0⟩ [], .leave 0]⟩, .declared "f" 1,
      ⟨some "f", 0, 1, some [.constantInt32 0 1, .leave 0]⟩]⟩ ⟨1⟩ = .error (.undefined ⟨0⟩) := by
    cbv
  obtain ⟨handle, after, success, number, kept, function, entry, failed⟩ : ∃ handle after,
      (history 0 .unlimited passedOn).defineText "f" "Ci0,i1|R0" 0 1 = (.ok handle, after) ∧
      handle.id = ⟨3⟩ ∧ after.module.get? ⟨0⟩ = some (.declared "f" 0) ∧
      ∃ function, after.function? "g" = some function ∧
        function.verifyAll = .error (.undefined ⟨0⟩) :=
    ⟨_, _, rfl, rfl, rfl, _, rfl, refused⟩
  refine ⟨only, handle, after, success, number, kept, ?_⟩
  rw [run_of_function? entry, runFunction, failed]

end Engine
end RegisterMachine
