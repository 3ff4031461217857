import RegisterMachine.Proofs.Module.Renumbering
import RegisterMachine.Proofs.Module.Table

/-!
Modules whose functions pass their checks, and the changes that keep them so.

A check of one function depends on the function itself and on how many arguments its callees take,
not on what the callees do. So what has passed goes on passing while functions are added and bodies
filled in, as long as no function goes away or takes another number of arguments.
-/
set_option autoImplicit false

namespace RegisterMachine

theorem Definition.isDefined_congr {definition later : Definition}
    (body : later.body = definition.body) : later.isDefined = definition.isDefined :=
  congrArg Option.isSome body

namespace Module

variable {module before middle after : Module} {id : FuncId}

/-- Every function has an id, and passes its check if it has a body. -/
structure Checked (module : Module) : Prop where
  numbered : module.size ≤ capacity
  passes : ∀ id definition, module.get? id = some definition → definition.isDefined = true →
    module.check id = .ok ()

/-! ## Changes that keep checks -/

/-- Every function is still there and takes as many arguments as it did. -/
def KeepsSignatures (before after : Module) : Prop :=
  ∀ id definition, before.get? id = some definition →
    ∃ later, after.get? id = some later ∧ later.argCount = definition.argCount

/-- A change that leaves no body unchecked: signatures stay, and a body that was not there before
passes its check. -/
structure Revision (before after : Module) : Prop where
  numbered : before.size ≤ capacity → after.size ≤ capacity
  signatures : before.KeepsSignatures after
  bodies : ∀ id later, after.get? id = some later → later.isDefined = true →
    after.check id = .ok () ∨
      ∃ definition, before.get? id = some definition ∧ definition.body = later.body

theorem KeepsSignatures.checkCall (kept : before.KeepsSignatures after) {pc : Nat}
    {instruction : Instruction} (passed : before.checkCall pc instruction = .ok ()) :
    after.checkCall pc instruction = .ok () := by
  cases instruction with
  | call dest callee args =>
      simp only [Module.checkCall] at passed ⊢
      split at passed
      · cases passed
      · rename_i definition present
        obtain ⟨later, there, same⟩ := kept callee definition present
        rw [there]
        dsimp only
        rwa [same]
  | _ => rfl

theorem KeepsSignatures.checkCode (kept : before.KeepsSignatures after) {argCount : Slot}
    {assigned : Assignments} {pc : Nat} {code : List Instruction}
    (passed : before.checkCode argCount assigned pc code = .ok ()) :
    after.checkCode argCount assigned pc code = .ok () := by
  induction code generalizing assigned pc with
  | nil => rfl
  | cons instruction rest ih =>
      obtain ⟨next, here, behind⟩ := bind_eq_ok passed
      obtain ⟨⟨⟩, call, dest⟩ := bind_eq_ok here
      simp only [Module.checkCode, checkInstruction, kept.checkCall call, dest]
      exact ih behind

/-- A function with the body it had passes as it did. -/
theorem KeepsSignatures.check (kept : before.KeepsSignatures after) {definition later : Definition}
    (present : before.get? id = some definition) (there : after.get? id = some later)
    (body : later.body = definition.body) (passed : before.check id = .ok ()) :
    after.check id = .ok () := by
  obtain ⟨found, here, isDefined, code⟩ := get?_of_check passed
  rw [present] at here
  cases here
  obtain ⟨other, same, arguments⟩ := kept id definition present
  rw [there] at same
  cases same
  have defined : later.isDefined = true := (Definition.isDefined_congr body).trans isDefined
  have unchanged : later.code = definition.code := congrArg (Option.getD · []) body
  simp only [Module.check, there, defined, if_true, unchanged, arguments]
  exact kept.checkCode code

/-- Every function is still there, with the arguments and the body that it had. -/
def KeepsBodies (before after : Module) : Prop :=
  ∀ id definition, before.get? id = some definition →
    ∃ later, after.get? id = some later ∧ later.argCount = definition.argCount ∧
      later.body = definition.body

namespace KeepsBodies

theorem signatures (kept : before.KeepsBodies after) : before.KeepsSignatures after := by
  intro id definition present
  obtain ⟨later, there, arguments, -⟩ := kept id definition present
  exact ⟨later, there, arguments⟩

theorem checkFrom (kept : before.KeepsBodies after) {checked pending : List FuncId}
    (passed : before.checkFrom checked pending = .ok ()) :
    after.checkFrom checked pending = .ok () := by
  fun_induction Module.checkFrom before checked pending with
  | case1 checked => rw [Module.checkFrom]
  | case2 checked id pending seen ih =>
      rw [checkFrom_of_checked seen]
      exact ih passed
  | case3 checked id pending new error failed => cases passed
  | case4 checked id pending new succeeded ih =>
      obtain ⟨definition, present, -⟩ := get?_of_check succeeded
      obtain ⟨later, there, -, body⟩ := kept id definition present
      have callees : after.calleesOf id = before.calleesOf id := by
        rw [calleesOf_of_get? there, calleesOf_of_get? present]
        simp only [Definition.callees, Definition.code, body]
      rw [checkFrom_of_ok new (kept.signatures.check present there body succeeded), callees]
      exact ih passed

theorem rename (module : Module) (id : FuncId) (name : String) :
    module.KeepsBodies (module.rename id name) := by
  intro other definition present
  by_cases same : id = other
  · subst same
    refine ⟨{ definition with name := some name }, ?_, rfl, rfl⟩
    rw [Module.rename, get?_modify_self, present]
    rfl
  · refine ⟨definition, ?_, rfl, rfl⟩
    rwa [Module.rename, get?_modify_of_ne same]

end KeepsBodies

theorem Checked.revise (checked : before.Checked) (revision : before.Revision after) :
    after.Checked := by
  refine ⟨revision.numbered checked.numbered, ?_⟩
  intro id later there defined
  rcases revision.bodies id later there defined with passed | ⟨definition, present, body⟩
  · exact passed
  · have earlier : definition.isDefined = true := (Definition.isDefined_congr body).trans defined
    exact revision.signatures.check present there body.symm
      (checked.passes id definition present earlier)

/-! ## Appending and changing functions -/

theorem get?_append_eq_some {more : List Definition} {definition : Definition}
    (present : get? ⟨module.functions ++ more⟩ id = some definition) :
    module.get? id = some definition ∨
      module.size ≤ id.index ∧ more[id.index - module.size]? = some definition := by
  rcases Nat.lt_or_ge id.index module.size with inside | outside
  · rw [get?, List.getElem?_append_left inside] at present
    exact .inl present
  · rw [get?, List.getElem?_append_right outside] at present
    exact .inr ⟨outside, present⟩

theorem KeepsSignatures.trans (first : before.KeepsSignatures middle)
    (second : middle.KeepsSignatures after) : before.KeepsSignatures after := by
  intro id definition present
  obtain ⟨next, here, same⟩ := first id definition present
  obtain ⟨later, there, still⟩ := second id next here
  exact ⟨later, there, still.trans same⟩

theorem keepsSignatures_append (module : Module) (more : List Definition) :
    module.KeepsSignatures ⟨module.functions ++ more⟩ :=
  fun _ definition present => ⟨definition, get?_append more present, rfl⟩

theorem keepsSignatures_modify {change : Definition → Definition}
    (arguments : ∀ definition, (change definition).argCount = definition.argCount) :
    module.KeepsSignatures (module.modify id change) := by
  intro other definition present
  by_cases same : id = other
  · subst same
    exact ⟨change definition, by rw [get?_modify_self, present]; rfl, arguments definition⟩
  · exact ⟨definition, by rwa [get?_modify_of_ne same], rfl⟩

/-- Every function that has a body is there later, unchanged. -/
def KeepsDefined (before after : Module) : Prop :=
  ∀ id definition, before.get? id = some definition → definition.isDefined = true →
    after.get? id = some definition

namespace KeepsDefined

theorem refl (module : Module) : module.KeepsDefined module :=
  fun _ _ present _ => present

theorem trans (first : before.KeepsDefined middle) (second : middle.KeepsDefined after) :
    before.KeepsDefined after := by
  intro id definition present defined
  exact second id definition (first id definition present defined) defined

theorem append (module : Module) (more : List Definition) :
    module.KeepsDefined ⟨module.functions ++ more⟩ :=
  fun _ _ present _ => get?_append more present

theorem modify {id : FuncId} {definition : Definition} (present : module.get? id = some definition)
    (bodiless : definition.body = none) (change : Definition → Definition) :
    module.KeepsDefined (module.modify id change) := by
  intro other kept here defined
  have differs : id ≠ other := by
    rintro rfl
    rw [present] at here
    cases here
    simp [Definition.isDefined, bodiless] at defined
  rwa [get?_modify_of_ne differs]

end KeepsDefined

theorem Revision.declared (room : module.size < capacity) (name : String) (argCount : Slot) :
    module.Revision ⟨module.functions ++ [.declared name argCount]⟩ where
  numbered _ := by simpa [size, Nat.succ_le_iff] using room
  signatures := module.keepsSignatures_append _
  bodies := by
    intro id later there defined
    rcases get?_append_eq_some there with present | ⟨-, added⟩
    · exact .inr ⟨later, present, rfl⟩
    · have same := List.mem_singleton.mp (List.mem_of_getElem? added)
      rw [same] at defined
      cases defined

/-- A change of one function that keeps its arguments and either keeps its body or makes it pass. -/
theorem Revision.modify {change : Definition → Definition}
    (arguments : ∀ definition, (change definition).argCount = definition.argCount)
    (settled : (∀ definition, (change definition).body = definition.body) ∨
      (module.modify id change).check id = .ok ()) :
    module.Revision (module.modify id change) where
  numbered := by simp [Module.modify, size]
  signatures := keepsSignatures_modify arguments
  bodies := by
    intro other later there defined
    by_cases same : id = other
    · subst same
      rw [get?_modify_self] at there
      obtain ⟨definition, present, rfl⟩ := Option.map_eq_some_iff.mp there
      rcases settled with body | passed
      · exact .inr ⟨definition, present, (body definition).symm⟩
      · exact .inl passed
    · rw [get?_modify_of_ne same] at there
      exact .inr ⟨later, there, rfl⟩

/-- The copies of verified functions pass where they are put. -/
theorem Revision.imported {function : Function} {order : List FuncId}
    (verified : function.verifyAll = .ok ())
    (found : function.module.reachable function.id = .ok order)
    (room : module.size + order.length ≤ capacity) :
    module.Revision ⟨module.functions ++ function.module.copiesOf module.size order⟩ where
  numbered _ := by
    obtain ⟨-, closed, -⟩ := reachable_eq_ok found
    simpa [size, length_copiesOf closed] using room
  signatures := module.keepsSignatures_append _
  bodies := by
    obtain ⟨distinct, closed, -⟩ := reachable_eq_ok found
    intro id later there defined
    rcases get?_append_eq_some there with present | ⟨behind, copied⟩
    · exact .inr ⟨later, present, rfl⟩
    · left
      -- The position of a copy tells which function it was made from, and that one was verified.
      have inside : id.index - module.size < order.length := by
        rw [← length_copiesOf closed]
        exact (List.getElem?_eq_some_iff.mp copied).1
      have member := List.getElem_mem inside
      have number : id = renumbering module.size order order[id.index - module.size] := by
        rw [← FuncId.index_inj, renumbering, distinct.idxOf_getElem,
          FuncId.index_ofIndex (by omega)]
        omega
      have passed := check_of_connected verified (connected_of_mem_reachable found member)
      rw [number, (Copied.of_import closed room).check member, passed]
      rfl

/-! ## Verifying in a checked module -/

theorem present_of_calls {caller callee : FuncId} (passed : module.check caller = .ok ())
    (calls : module.Calls caller callee) : ∃ definition, module.get? callee = some definition := by
  obtain ⟨definition, present, lawful⟩ := check_eq_ok_iff.mp passed
  exact lawful.get?_of_calls present calls

/-- In a checked module a function fails only because it has no body. -/
theorem Checked.check_eq_error (checked : module.Checked) {definition : Definition}
    {error : VerifyError} (present : module.get? id = some definition)
    (failed : module.check id = .error error) :
    definition.isDefined = false ∧ error = .undefined id := by
  cases defined : definition.isDefined with
  | true =>
      rw [checked.passes id definition present defined] at failed
      cases failed
  | false =>
      simp only [check, present, defined] at failed
      cases failed
      exact ⟨rfl, rfl⟩

theorem Checked.checkFrom_eq_error (checked : module.Checked) {entry : FuncId}
    {visited pending : List FuncId} {error : VerifyError}
    (failed : module.checkFrom visited pending = .error error)
    (ahead : ∀ id ∈ pending, module.Connected entry id ∧
      ∃ definition, module.get? id = some definition) :
    ∃ id definition, module.Connected entry id ∧ module.get? id = some definition ∧
      definition.isDefined = false ∧ error = .undefined id := by
  -- What waits is connected and present: a visit that passes adds its callees, which are both.
  fun_induction checkFrom module visited pending with
  | case1 visited => cases failed
  | case2 visited id pending seen ih => exact ih failed (List.forall_mem_cons.mp ahead).2
  | case3 visited id pending new cause here =>
      cases failed
      obtain ⟨connected, definition, present⟩ := (List.forall_mem_cons.mp ahead).1
      obtain ⟨bodiless, named⟩ := checked.check_eq_error present here
      exact ⟨id, definition, connected, present, bodiless, named⟩
  | case4 visited id pending new passed ih =>
      obtain ⟨⟨connected, -⟩, ahead⟩ := List.forall_mem_cons.mp ahead
      refine ih failed ?_
      intro other queued
      rcases List.mem_append.mp queued with called | waiting
      · have calls : module.Calls id other := List.mem_reverse.mp called
        exact ⟨connected.tail calls, present_of_calls passed calls⟩
      · exact ahead other waiting

end Module

/-- In a checked module verification fails only at a function that calls lead to and that has no
body. -/
theorem Function.verifyAll_eq_error {function : Function} {error : VerifyError}
    (checked : function.module.Checked) (failed : function.verifyAll = .error error) :
    ∃ id definition, function.module.Connected function.id id ∧
      function.module.get? id = some definition ∧ definition.isDefined = false ∧
      error = .undefined id := by
  refine checked.checkFrom_eq_error failed ?_
  intro id queued
  rw [List.mem_singleton.mp queued]
  exact ⟨.refl, function.definition, function.get?_id⟩

end RegisterMachine
