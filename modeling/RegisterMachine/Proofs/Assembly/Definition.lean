import Mathlib.Logic.Relation
import RegisterMachine.Proofs.Assembly.Tokens
import RegisterMachine.Proofs.Module.Checked

/-!
Functions that texts define.

A text is assembled against the module with its function's name in it, and the declaration goes
again if the text is refused. The assembler binds every call to what its name stands for and counts
its arguments. So the calls keep their rules, now and wherever functions are added to the module or
bodies filled in, and a check can find fault with destinations only.
-/
set_option autoImplicit false

namespace RegisterMachine

/-- The function that a text with this code defines. -/
def Definition.ofText (name : String) (argCount : Slot) (numLocals : Option Slot)
    (code : List Instruction) : Definition :=
  ⟨some name, argCount, numLocals.getD (localsNeeded code argCount), some code⟩

/-! ## What operands are made into -/

namespace Assembly

variable {opcode : Opcode} {texts : List (List Char)} {instruction : Instruction}

theorem opcode_of_unary {build : Slot → Instruction} (builds : ∀ a, (build a).opcode = opcode)
    (made : unary build texts = .ok instruction) : instruction.opcode = opcode := by
  unfold unary at made
  split at made
  · obtain ⟨a, -, made⟩ := bind_eq_ok made
    cases made
    exact builds a
  · cases made

theorem opcode_of_binary {build : Slot → Slot → Instruction}
    (builds : ∀ a b, (build a b).opcode = opcode) (made : binary build texts = .ok instruction) :
    instruction.opcode = opcode := by
  unfold binary at made
  split at made
  · obtain ⟨a, -, made⟩ := bind_eq_ok made
    obtain ⟨b, -, made⟩ := bind_eq_ok made
    cases made
    exact builds a b
  · cases made

theorem opcode_of_ternary {build : Slot → Slot → Slot → Instruction}
    (builds : ∀ a b c, (build a b c).opcode = opcode)
    (made : ternary build texts = .ok instruction) : instruction.opcode = opcode := by
  unfold ternary at made
  split at made
  · obtain ⟨a, -, made⟩ := bind_eq_ok made
    obtain ⟨b, -, made⟩ := bind_eq_ok made
    obtain ⟨c, -, made⟩ := bind_eq_ok made
    cases made
    exact builds a b c
  · cases made

/-- The token of `source` at `index` is a call that names `called`. -/
def NamesAt (source : String) (index : Nat) (called : String) : Prop :=
  ∃ token text dest args, (source.toList.splitOn '|')[index]? = some token ∧
    Opcode.recognise token = some (.call, text) ∧ operands text = dest :: called.toList :: args

end Assembly

namespace Scope

open Assembly

variable {scope : Scope} {opcode : Opcode} {texts : List (List Char)} {token : List Char}
  {instruction : Instruction} {source : String} {code : List Instruction} {index : Nat}

theorem opcode_of_constant {access : Access}
    (made : scope.constant access texts = .ok instruction) :
    instruction.opcode = .constant access := by
  unfold constant at made
  split at made
  · obtain ⟨dest, -, made⟩ := bind_eq_ok made
    obtain ⟨value, -, made⟩ := bind_eq_ok made
    split at made
    · cases made
      rfl
    · cases made
      rfl
    · cases made
      rfl
    · cases made
  · cases made

theorem opcode_of_execute (made : execute texts = .ok instruction) :
    instruction.opcode = .execute := by
  unfold execute at made
  split at made
  · obtain ⟨dest, -, made⟩ := bind_eq_ok made
    obtain ⟨callee, -, made⟩ := bind_eq_ok made
    obtain ⟨args, -, made⟩ := bind_eq_ok made
    cases made
    rfl
  · cases made

/-- A call is bound to the function that its name stands for, and passes as many arguments as that
takes. -/
theorem call_eq_ok (made : scope.assembleOperands .call texts = .ok instruction) :
    ∃ dest name rest slot callee argCount args, texts = dest :: name :: rest ∧
      instruction = .call slot callee args ∧
      scope.function? (String.ofList name) = some (callee, argCount) ∧
      args.length = argCount.toNat := by
  simp only [assembleOperands, call] at made
  split at made
  · rename_i dest name rest
    obtain ⟨slot, -, made⟩ := bind_eq_ok made
    split at made
    · cases made
    · rename_i callee argCount found
      obtain ⟨args, -, made⟩ := bind_eq_ok made
      split at made
      · rename_i arity
        cases made
        exact ⟨dest, name, rest, slot, callee, argCount, args, rfl, rfl, found, arity⟩
      · cases made
  · cases made

theorem opcode_of_assembleOperands (made : scope.assembleOperands opcode texts = .ok instruction) :
    instruction.opcode = opcode := by
  cases opcode with
  | allocate access => exact opcode_of_unary (fun _ => rfl) made
  | store access => exact opcode_of_binary (fun _ _ => rfl) made
  | load access => exact opcode_of_binary (fun _ _ => rfl) made
  | equal => exact opcode_of_ternary (fun _ _ _ => rfl) made
  | constant access => exact opcode_of_constant made
  | extract kind => exact opcode_of_binary (fun _ _ => rfl) made
  | jump => exact opcode_of_unary (fun _ => rfl) made
  | branch => exact opcode_of_binary (fun _ _ => rfl) made
  | add => exact opcode_of_ternary (fun _ _ _ => rfl) made
  | call =>
      obtain ⟨-, -, -, slot, callee, -, args, -, rfl, -⟩ := call_eq_ok made
      rfl
  | leave => exact opcode_of_unary (fun _ => rfl) made
  | execute => exact opcode_of_execute made

theorem assembleToken_eq_ok (made : scope.assembleToken token = .ok instruction) :
    ∃ text, Opcode.recognise token = some (instruction.opcode, text) ∧
      scope.assembleOperands instruction.opcode (operands text) = .ok instruction := by
  unfold assembleToken at made
  split at made
  · cases made
  · split at made
    · cases made
    · rename_i opcode text recognised
      split at made
      · rename_i assembled
        cases made
        rw [opcode_of_assembleOperands assembled]
        exact ⟨text, recognised, assembled⟩
      · cases made

/-! ## The calls of a text -/

theorem token_of_assemble (assembled : scope.assemble source = .ok code)
    (here : code[index]? = some instruction) :
    ∃ token, (source.toList.splitOn '|')[index]? = some token ∧
      scope.assembleToken token = .ok instruction := by
  by_cases empty : source = ""
  · subst empty
    cases assembled
    cases here
  rw [assemble_of_ne_empty empty, assembleTokens_eq_ok_iff, List.forall₂_iff_get] at assembled
  obtain ⟨lengths, made⟩ := assembled
  obtain ⟨inside, rfl⟩ := List.getElem?_eq_some_iff.mp here
  exact ⟨_, List.getElem?_eq_getElem (by omega), made index (by omega) inside⟩

theorem instruction_of_assemble (assembled : scope.assemble source = .ok code)
    (there : (source.toList.splitOn '|')[index]? = some token) (nonempty : token ≠ []) :
    ∃ instruction, code[index]? = some instruction ∧
      scope.assembleToken token = .ok instruction := by
  by_cases empty : source = ""
  · subst empty
    exact absurd (List.mem_singleton.mp (List.mem_of_getElem? there)) nonempty
  rw [assemble_of_ne_empty empty, assembleTokens_eq_ok_iff, List.forall₂_iff_get] at assembled
  obtain ⟨lengths, made⟩ := assembled
  obtain ⟨inside, rfl⟩ := List.getElem?_eq_some_iff.mp there
  exact ⟨_, List.getElem?_eq_getElem (by omega), made index inside (by omega)⟩

theorem call_of_namesAt {called : String} (assembled : scope.assemble source = .ok code)
    (names : NamesAt source index called) :
    ∃ dest callee args argCount, code[index]? = some (.call dest callee args) ∧
      scope.function? called = some (callee, argCount) := by
  obtain ⟨token, text, dest, rest, there, recognised, split⟩ := names
  -- A text without characters has an empty token and no instruction, but that token is no call.
  have nonempty : token ≠ [] := by
    rintro rfl
    cases recognised
  obtain ⟨instruction, here, made⟩ := instruction_of_assemble assembled there nonempty
  obtain ⟨other, same, bound⟩ := assembleToken_eq_ok made
  rw [recognised] at same
  obtain ⟨opcode, rfl⟩ := Prod.mk.inj (Option.some.inj same)
  rw [← opcode, split] at bound
  obtain ⟨_, name, _, slot, callee, argCount, args, shape, rfl, found, -⟩ := call_eq_ok bound
  cases shape
  rw [String.ofList_toList] at found
  exact ⟨slot, callee, args, argCount, here, found⟩

theorem function?_eq_some {name : String} {callee : FuncId} {argCount : Slot} {module : Module}
    (functions : scope.functions = some module)
    (found : scope.function? name = some (callee, argCount)) :
    module.lookup name = some callee ∧
      ∃ definition, module.get? callee = some definition ∧ definition.argCount = argCount := by
  simp only [function?, functions, Option.bind_eq_bind, Option.bind_some,
    Option.bind_eq_some_iff] at found
  obtain ⟨id, named, definition, present, same⟩ := found
  cases same
  exact ⟨named, definition, present, rfl⟩

end Scope

namespace Module

open Assembly

variable {module before after : Module} {code : List Instruction} {definition : Definition}
  {id : FuncId}

/-- Every call in `code` names a function and passes as many arguments as it takes. -/
def Resolves (module : Module) (code : List Instruction) : Prop :=
  ∀ dest callee args, .call dest callee args ∈ code →
    ∃ target, module.get? callee = some target ∧ args.length = target.argCount.toNat

theorem resolves_of_assemble {scope : Scope} {source : String}
    (functions : scope.functions = some module) (assembled : scope.assemble source = .ok code) :
    module.Resolves code := by
  intro dest callee args member
  obtain ⟨index, here⟩ := List.mem_iff_getElem?.mp member
  obtain ⟨token, -, made⟩ := Scope.token_of_assemble assembled here
  obtain ⟨text, -, bound⟩ := Scope.assembleToken_eq_ok made
  obtain ⟨-, name, -, slot, found, argCount, passed, -, same, named, arity⟩ :=
    Scope.call_eq_ok bound
  cases same
  obtain ⟨-, target, present, rfl⟩ := Scope.function?_eq_some functions named
  exact ⟨target, present, arity⟩

/-! ## Checks of functions whose calls are bound -/

theorem Resolves.keep (resolved : before.Resolves code) (kept : before.KeepsSignatures after) :
    after.Resolves code := by
  intro dest callee args member
  obtain ⟨target, present, arity⟩ := resolved dest callee args member
  obtain ⟨later, there, same⟩ := kept callee target present
  exact ⟨later, there, by rw [arity, same]⟩

theorem Resolves.checkCall (resolved : module.Resolves code) {instruction : Instruction}
    (member : instruction ∈ code) (pc : Nat) : module.checkCall pc instruction = .ok () := by
  cases instruction with
  | call dest callee args =>
      obtain ⟨target, present, arity⟩ := resolved dest callee args member
      simp only [Module.checkCall, present, if_pos arity]
  | _ => rfl

/-- With its calls bound, what a check finds depends on the function alone. -/
theorem checkCode_eq_of_resolves (early : before.Resolves code) (late : after.Resolves code)
    (argCount : Slot) (assigned : Assignments) (pc : Nat) :
    after.checkCode argCount assigned pc code = before.checkCode argCount assigned pc code := by
  induction code generalizing assigned pc with
  | nil => rfl
  | cons instruction rest ih =>
      have behind := ih (fun dest callee args member => early _ _ _ (List.mem_cons_of_mem _ member))
        (fun dest callee args member => late _ _ _ (List.mem_cons_of_mem _ member))
      simp only [checkCode, checkInstruction, behind, early.checkCall List.mem_cons_self,
        late.checkCall List.mem_cons_self]

theorem Resolves.check_eq_error (resolved : module.Resolves definition.code)
    (present : module.get? id = some definition) (defined : definition.isDefined = true)
    {error : VerifyError} (failed : module.check id = .error error) :
    (∃ pc slot, error = .argumentAssigned pc slot definition.argCount) ∨
      ∃ slot first second, error = .reassigned slot first second := by
  rw [check_of_isDefined present defined] at failed
  obtain ⟨pc, found⟩ := firstViolation_of_checkCode failed
  cases found.violation with
  | unknownCallee here missing =>
      obtain ⟨target, there, -⟩ := resolved _ _ _ (List.mem_of_getElem? here)
      rw [missing] at there
      cases there
  | callArity here there differs =>
      obtain ⟨target, same, arity⟩ := resolved _ _ _ (List.mem_of_getElem? here)
      rw [there] at same
      cases same
      exact absurd arity differs
  | argumentAssigned assigned argument => exact .inl ⟨_, _, rfl⟩
  | reassigned assigned earlier first => exact .inr ⟨_, _, _, rfl⟩

/-! ## Extensions of a module -/

/-- One more function, or a body for a function that has none. -/
inductive Extension (module : Module) : Module → Prop where
  | declare {name : String} {argCount : Slot} {id : FuncId} {after : Module}
      (done : module.declare name argCount = .ok (id, after)) : Extension module after
  | add {code : List Instruction} {argCount numLocals : Slot} {id : FuncId} {after : Module}
      (done : module.add code argCount numLocals = .ok (id, after)) : Extension module after
  | define {id : FuncId} {code : List Instruction} {numLocals : Slot} {after : Module}
      (done : module.define id code numLocals = .ok after) : Extension module after
  | imports {function : Function} {id : FuncId} {after : Module}
      (done : module.importFunction function = .ok (id, after)) : Extension module after

theorem Extension.cases_table (extended : module.Extension after) :
    (∃ more, after = ⟨module.functions ++ more⟩) ∨
      ∃ id definition code numLocals, module.get? id = some definition ∧ definition.body = none ∧
        after = module.modify id fun definition =>
          { definition with body := some code, numLocals := numLocals } := by
  have pushed : ∀ {added : Definition} {id : FuncId},
      module.push added = .ok (id, after) → ∃ more, after = ⟨module.functions ++ more⟩ := by
    intro added id done
    unfold push at done
    split at done
    · cases done
      exact ⟨_, rfl⟩
    · cases done
  cases extended with
  | declare done => exact .inl (pushed done)
  | add done => exact .inl (pushed done)
  | define done =>
      right
      unfold Module.define at done
      split at done
      · cases done
      · rename_i definition present
        split at done
        · cases done
        · rename_i bodiless
          cases done
          exact ⟨_, definition, _, _, present, by simpa [Definition.isDefined] using bodiless, rfl⟩
  | imports done =>
      obtain ⟨order, -, -, -, rfl⟩ := of_importFunction_eq_ok done
      exact .inl ⟨_, rfl⟩

theorem Extension.keeps (extended : module.Extension after) :
    module.KeepsSignatures after ∧ module.KeepsDefined after := by
  rcases extended.cases_table with ⟨more, rfl⟩ | ⟨id, definition, _, _, present, bodiless, rfl⟩
  · exact ⟨module.keepsSignatures_append more, .append module more⟩
  · exact ⟨keepsSignatures_modify fun _ => rfl, .modify present bodiless _⟩

theorem keeps_of_extensions (extended : Relation.ReflTransGen Extension module after) :
    module.KeepsSignatures after ∧ module.KeepsDefined after := by
  induction extended with
  | refl => exact ⟨fun _ definition present => ⟨definition, present, rfl⟩, .refl module⟩
  | tail _ step ih =>
      obtain ⟨signatures, defined⟩ := step.keeps
      exact ⟨ih.1.trans signatures, ih.2.trans defined⟩

/-! ## Definitions by text -/

section Text

variable {callbacks : Option Registry} {name source : String} {argCount : Slot}
  {numLocals : Option Slot}

/-- The names that a text is assembled against. -/
def textScope (module : Module) (callbacks : Option Registry) (name : String) (argCount : Slot) :
    Scope :=
  ⟨some ⟨module.functions ++ [.declared name argCount]⟩, callbacks⟩

theorem define_declared (room : module.size < capacity) (code : List Instruction) :
    define ⟨module.functions ++ [.declared name argCount]⟩ (.ofIndex module.size) code
        (numLocals.getD (localsNeeded code argCount)) =
      .ok ⟨module.functions ++ [.ofText name argCount numLocals code]⟩ := by
  rw [define_of_get? (get?_append_cons room _ []) rfl, modify_append_cons room]
  rfl

theorem attemptText_of_full (full : capacity ≤ module.size) :
    module.attemptText callbacks name source argCount numLocals =
      (.error ⟨0, .build .tooManyFunctions⟩, module) := by
  simp only [attemptText, declare_of_full full]

theorem attemptText_of_refused (room : module.size < capacity) {error : AssemblyError}
    (refused : (module.textScope callbacks name argCount).assemble source = .error error) :
    module.attemptText callbacks name source argCount numLocals = (.error error, module) := by
  rw [textScope] at refused
  simp only [attemptText, declare_of_room room, refused, truncate_append]

theorem attemptText_of_assembled (room : module.size < capacity)
    (assembled : (module.textScope callbacks name argCount).assemble source = .ok code) :
    module.attemptText callbacks name source argCount numLocals =
      (.ok (.ofIndex module.size),
        ⟨module.functions ++ [.ofText name argCount numLocals code]⟩) := by
  rw [textScope] at assembled
  simp only [attemptText, declare_of_room room, assembled, define_declared room]

theorem attemptText_eq_error {error : AssemblyError}
    (failed : module.attemptText callbacks name source argCount numLocals = (.error error, after)) :
    after = module := by
  rcases Nat.lt_or_ge module.size capacity with room | full
  · cases outcome : (module.textScope callbacks name argCount).assemble source with
    | error cause =>
        rw [attemptText_of_refused room outcome] at failed
        cases failed
        rfl
    | ok code =>
        rw [attemptText_of_assembled room outcome] at failed
        cases failed
  · rw [attemptText_of_full full] at failed
    cases failed
    rfl

theorem attemptText_eq_ok
    (success : module.attemptText callbacks name source argCount numLocals = (.ok id, after)) :
    ∃ code, module.size < capacity ∧ id = .ofIndex module.size ∧
      (module.textScope callbacks name argCount).assemble source = .ok code ∧
      after = ⟨module.functions ++ [Definition.ofText name argCount numLocals code]⟩ := by
  rcases Nat.lt_or_ge module.size capacity with room | full
  · cases outcome : (module.textScope callbacks name argCount).assemble source with
    | error cause =>
        rw [attemptText_of_refused room outcome] at success
        cases success
    | ok code =>
        rw [attemptText_of_assembled room outcome] at success
        cases success
        exact ⟨code, room, rfl, rfl, rfl⟩
  · rw [attemptText_of_full full] at success
    cases success

theorem lookup_textScope (code : List Instruction) (called : String) :
    lookup ⟨module.functions ++ [.declared name argCount]⟩ called =
      lookup ⟨module.functions ++ [Definition.ofText name argCount numLocals code]⟩ called := by
  by_cases same : name = called
  · subst same
    rw [lookup_append_cons_of_absent rfl (by simp), lookup_append_cons_of_absent rfl (by simp)]
  · rw [lookup_append_of_absent (by simpa [Definition.declared] using same),
      lookup_append_of_absent (by simpa [Definition.ofText] using same)]

/-- What a text may do to a module: nothing, or to append its function. The name then stands for the
function, in its own body already and whatever it stood for before, and no later extension of the
module makes its check fail for a call. -/
theorem attemptText_all_or_nothing (module : Module) (callbacks : Option Registry)
    (name source : String) (argCount : Slot) (numLocals : Option Slot) :
    (∀ error after,
      module.attemptText callbacks name source argCount numLocals = (.error error, after) →
        after = module) ∧
    ∀ id after, module.attemptText callbacks name source argCount numLocals = (.ok id, after) →
      ∃ code, (module.textScope callbacks name argCount).assemble source = .ok code ∧
        after.functions = module.functions ++ [.ofText name argCount numLocals code] ∧
        id.index = module.size ∧ after.lookup name = some id ∧
        (∀ index called, NamesAt source index called →
          ∃ dest callee args, code[index]? = some (.call dest callee args) ∧
            after.lookup called = some callee ∧ (called = name → callee = id)) ∧
        ∀ later, Relation.ReflTransGen Extension after later →
          later.get? id = some (.ofText name argCount numLocals code) ∧
          later.check id = after.check id ∧
          ∀ error, later.check id = .error error →
            (∃ pc slot, error = .argumentAssigned pc slot argCount) ∨
              ∃ slot first second, error = .reassigned slot first second := by
  refine ⟨fun error after failed => attemptText_eq_error failed, ?_⟩
  intro id after success
  obtain ⟨code, room, rfl, assembled, rfl⟩ := attemptText_eq_ok success
  have named : lookup ⟨module.functions ++ [.ofText name argCount numLocals code]⟩ name =
      some (.ofIndex module.size) := lookup_append_cons_of_absent rfl (by simp)
  have present := get?_append_cons room (.ofText name argCount numLocals code) []
  have resolved : Resolves ⟨module.functions ++ [.ofText name argCount numLocals code]⟩ code :=
    (resolves_of_assemble rfl assembled).keep (Extension.define (define_declared room code)).keeps.1
  refine ⟨code, assembled, rfl, FuncId.index_ofIndex room, named, ?_, ?_⟩
  · -- The scope has the declaration where the module has the definition: names agree in both.
    intro index called names
    obtain ⟨dest, callee, args, argCount, here, found⟩ := Scope.call_of_namesAt assembled names
    obtain ⟨stands, -⟩ := Scope.function?_eq_some rfl found
    rw [lookup_textScope code] at stands
    refine ⟨dest, callee, args, here, stands, ?_⟩
    rintro rfl
    exact Option.some.inj (stands.symm.trans named)
  · intro later extended
    obtain ⟨signatures, bodies⟩ := keeps_of_extensions extended
    have there := bodies _ _ present rfl
    have lasting := resolved.keep signatures
    refine ⟨there, ?_, fun error failed => lasting.check_eq_error there rfl failed⟩
    rw [check_of_isDefined present rfl, check_of_isDefined there rfl]
    exact checkCode_eq_of_resolves resolved lasting _ [] 0

end Text

/-- A module with a function that takes two arguments. -/
def taking : Module :=
  ⟨[.declared "f" 2]⟩

/-- The same module with a function of the same name that takes one. -/
def retaking : Module :=
  ⟨[.declared "f" 2, ⟨some "f", 1, 1, some [.constantInt32 0 7, .call 1 ⟨1⟩ [0], .leave 1]⟩]⟩

theorem attemptText_all_or_nothing_taking :
    taking.attemptText none "f" "()1,f,0,0|R1" 1 none =
        (.error ⟨0, .operands .call "()1,f,0,0" (.callArity "f" 1 2)⟩, taking) ∧
      taking.attemptText none "f" "Ci0,i7|()1,f,0|R1" 1 none = (.ok ⟨1⟩, retaking) ∧
      NamesAt "Ci0,i7|()1,f,0|R1" 1 "f" ∧
      (∃ code, retaking.functions = [.declared "f" 2, .ofText "f" 1 none code] ∧
        ∃ dest args, code[1]? = some (.call dest ⟨1⟩ args)) ∧
      ∀ later, Relation.ReflTransGen Extension retaking later →
        later.check ⟨1⟩ = .error (.argumentAssigned 0 0 1) := by
  have refused : taking.attemptText none "f" "()1,f,0,0|R1" 1 none =
      (.error ⟨0, .operands .call "()1,f,0,0" (.callArity "f" 1 2)⟩, taking) := by decide +kernel
  have accepted : taking.attemptText none "f" "Ci0,i7|()1,f,0|R1" 1 none =
      (.ok ⟨1⟩, retaking) := by decide +kernel
  have checked : retaking.check ⟨1⟩ = .error (.argumentAssigned 0 0 1) := by decide
  have names : NamesAt "Ci0,i7|()1,f,0|R1" 1 "f" :=
    ⟨['(', ')', '1', ',', 'f', ',', '0'], ['1', ',', 'f', ',', '0'], ['1'], [['0']], by decide,
      by decide, by decide⟩
  obtain ⟨code, -, table, -, -, calls, lasting⟩ :=
    (attemptText_all_or_nothing taking none "f" "Ci0,i7|()1,f,0|R1" 1 none).2 _ _ accepted
  refine ⟨refused, accepted, names, ⟨code, table, ?_⟩, ?_⟩
  · obtain ⟨dest, callee, args, here, -, own⟩ := calls 1 "f" names
    obtain rfl := own rfl
    exact ⟨dest, args, here⟩
  · intro later extended
    rw [(lasting later extended).2.1, checked]

end Module
end RegisterMachine
