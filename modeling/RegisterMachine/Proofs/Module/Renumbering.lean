import RegisterMachine.Proofs.Module.Import

/-!
Verification does not depend on how functions are numbered.

Copies of functions, closed under calls and renumbered without clashes, pass a check when the
functions do. Otherwise they fail it in the same place, and the error names the copies instead.
-/
set_option autoImplicit false

namespace RegisterMachine

/-- The same error about functions with other numbers. -/
def VerifyError.mapIds (rename : FuncId → FuncId) : VerifyError → VerifyError
  | .argumentAssigned pc slot argCount => .argumentAssigned pc slot argCount
  | .reassigned slot first second => .reassigned slot first second
  | .unknownCallee pc callee => .unknownCallee pc (rename callee)
  | .callArity pc callee expected found => .callArity pc (rename callee) expected found
  | .undefined id => .undefined (rename id)
  | .unknownFunction id => .unknownFunction (rename id)

theorem mapError_bind {α β ε ε' : Type} (change : ε → ε') (first : Except ε α)
    (next : α → Except ε β) :
    (first >>= next).mapError change =
      first.mapError change >>= fun value => (next value).mapError change := by
  cases first <;> rfl

theorem Instruction.dest?_mapCallee (rename : FuncId → FuncId) (instruction : Instruction) :
    (instruction.mapCallee rename).dest? = instruction.dest? := by
  cases instruction <;> rfl

theorem Instruction.callee?_mapCallee (rename : FuncId → FuncId) (instruction : Instruction) :
    (instruction.mapCallee rename).callee? = instruction.callee?.map rename := by
  cases instruction <;> rfl

namespace Definition

variable (rename : FuncId → FuncId) (definition : Definition)

theorem code_mapCallees :
    (definition.mapCallees rename).code = definition.code.map (Instruction.mapCallee rename) :=
  (definition.mapCallees_mirrors rename).code

theorem callees_mapCallees :
    (definition.mapCallees rename).callees = definition.callees.map rename := by
  rw [callees, code_mapCallees, List.filterMap_map, callees, List.map_filterMap]
  congr 1
  funext instruction
  exact instruction.callee?_mapCallee rename

theorem isDefined_mapCallees : (definition.mapCallees rename).isDefined = definition.isDefined := by
  simp [isDefined, mapCallees]

end Definition

namespace Module

theorem checkDest_mapCallee (rename : FuncId → FuncId) (argCount : Slot) (assigned : Assignments)
    (pc : Nat) (instruction : Instruction) :
    checkDest argCount assigned pc (instruction.mapCallee rename) =
      (checkDest argCount assigned pc instruction).mapError (VerifyError.mapIds rename) := by
  simp only [checkDest, Instruction.dest?_mapCallee]
  cases instruction.dest? with
  | none => rfl
  | some slot =>
      dsimp only
      split
      · rfl
      · cases assigned.lookup slot with
        | none => rfl
        | some first => rfl

/-- The functions `ids` of `source` call none but each other, and `target` has copies of them under
other numbers, no two under the same. -/
structure Copied (source target : Module) (rename : FuncId → FuncId) (ids : List FuncId) :
    Prop where
  closed : source.Closed ids
  copies : ∀ id ∈ ids, ∀ definition, source.get? id = some definition →
    target.get? (rename id) = some (definition.mapCallees rename)
  injective : ∀ a ∈ ids, ∀ b ∈ ids, rename a = rename b → a = b

namespace Copied

variable {source target : Module} {rename : FuncId → FuncId} {ids : List FuncId}

theorem calleesOf (copied : Copied source target rename ids) {id : FuncId} (member : id ∈ ids) :
    target.calleesOf (rename id) = (source.calleesOf id).map rename := by
  obtain ⟨definition, present⟩ := copied.closed.present id member
  rw [calleesOf_of_get? (copied.copies id member definition present), calleesOf_of_get? present,
    definition.callees_mapCallees]

theorem checkCall (copied : Copied source target rename ids) (pc : Nat) {instruction : Instruction}
    (inside : ∀ callee ∈ instruction.callee?, callee ∈ ids) :
    target.checkCall pc (instruction.mapCallee rename) =
      (source.checkCall pc instruction).mapError (VerifyError.mapIds rename) := by
  cases instruction with
  | call dest callee args =>
      obtain ⟨definition, present⟩ := copied.closed.present callee (inside callee rfl)
      have there := copied.copies callee (inside callee rfl) definition present
      simp only [Instruction.mapCallee, Module.checkCall, present, there]
      rw [apply_ite (Except.mapError (VerifyError.mapIds rename))]
      rfl
  | _ => rfl

theorem checkCode (copied : Copied source target rename ids) (argCount : Slot)
    (assigned : Assignments) (pc : Nat) {code : List Instruction}
    (inside : ∀ instruction ∈ code, ∀ callee ∈ instruction.callee?, callee ∈ ids) :
    target.checkCode argCount assigned pc (code.map (Instruction.mapCallee rename)) =
      (source.checkCode argCount assigned pc code).mapError (VerifyError.mapIds rename) := by
  induction code generalizing assigned pc with
  | nil => rfl
  | cons instruction rest ih =>
      have here := inside instruction List.mem_cons_self
      have later := fun other member => inside other (List.mem_cons_of_mem instruction member)
      simp only [List.map_cons, Module.checkCode, checkInstruction, mapError_bind,
        copied.checkCall pc here, checkDest_mapCallee, ih _ (pc + 1) later]

/-- A copy is checked as the function is. -/
theorem check (copied : Copied source target rename ids) {id : FuncId} (member : id ∈ ids) :
    target.check (rename id) = (source.check id).mapError (VerifyError.mapIds rename) := by
  obtain ⟨definition, present⟩ := copied.closed.present id member
  have inside : ∀ instruction ∈ definition.code, ∀ callee ∈ instruction.callee?, callee ∈ ids := by
    intro instruction listed callee called
    refine copied.closed.callees id member callee ?_
    rw [calleesOf_of_get? present]
    exact List.mem_filterMap.mpr ⟨instruction, listed, called⟩
  have code := copied.checkCode definition.argCount [] 0 inside
  rw [← definition.code_mapCallees] at code
  simp only [Module.check, present, copied.copies id member definition present,
    definition.isDefined_mapCallees]
  split
  · exact code
  · rfl

theorem mem_map (copied : Copied source target rename ids) {checked : List FuncId} {id : FuncId}
    (member : id ∈ ids) (covered : checked ⊆ ids) :
    rename id ∈ checked.map rename ↔ id ∈ checked := by
  constructor
  · intro there
    obtain ⟨other, listed, same⟩ := List.mem_map.mp there
    exact copied.injective other (covered listed) id member same ▸ listed
  · exact List.mem_map_of_mem

/-- The depth-first check takes the same way through the copies. -/
theorem checkFrom (copied : Copied source target rename ids) {checked pending : List FuncId}
    (before : checked ⊆ ids) (ahead : pending ⊆ ids) :
    target.checkFrom (checked.map rename) (pending.map rename) =
      (source.checkFrom checked pending).mapError (VerifyError.mapIds rename) := by
  -- Visited and pending functions stay inside `ids`, where different numbers stay different.
  fun_induction Module.checkFrom source checked pending with
  | case1 checked =>
      rw [List.map_nil, Module.checkFrom]
      rfl
  | case2 checked id pending seen ih =>
      obtain ⟨member, ahead⟩ := List.cons_subset.mp ahead
      rw [List.map_cons, checkFrom_of_checked ((copied.mem_map member before).mpr seen),
        ih before ahead]
  | case3 checked id pending new error failed =>
      obtain ⟨member, ahead⟩ := List.cons_subset.mp ahead
      have there : target.check (rename id) = .error (error.mapIds rename) := by
        rw [copied.check member, failed]
        rfl
      rw [List.map_cons, checkFrom_of_error (mt (copied.mem_map member before).mp new) there]
      rfl
  | case4 checked id pending new succeeded ih =>
      obtain ⟨member, ahead⟩ := List.cons_subset.mp ahead
      have there : target.check (rename id) = .ok () := by
        rw [copied.check member, succeeded]
        rfl
      have queued : (source.calleesOf id).reverse ++ pending ⊆ ids := by
        intro other listed
        rcases List.mem_append.mp listed with called | waiting
        · exact copied.closed.callees id member other (List.mem_reverse.mp called)
        · exact ahead waiting
      have visited : id :: checked ⊆ ids := List.cons_subset.mpr ⟨member, before⟩
      rw [List.map_cons, checkFrom_of_ok (mt (copied.mem_map member before).mp new) there,
        copied.calleesOf member, ← List.map_reverse, ← List.map_append, ← List.map_cons,
        ih visited queued]

theorem checkReachable (copied : Copied source target rename ids) {entry : FuncId}
    (member : entry ∈ ids) :
    target.checkReachable (rename entry) =
      (source.checkReachable entry).mapError (VerifyError.mapIds rename) :=
  copied.checkFrom (List.nil_subset ids) (List.cons_subset.mpr ⟨member, List.nil_subset ids⟩)

theorem checkReachable_eq_ok (copied : Copied source target rename ids) {entry : FuncId}
    (member : entry ∈ ids) (complete : source.checkReachable entry = .ok ()) :
    target.checkReachable (rename entry) = .ok () := by
  rw [copied.checkReachable member, complete]
  rfl

/-- The breadth-first search finds the copies in the order of the functions. -/
theorem reachableFrom (copied : Copied source target rename ids) {found queue : List FuncId}
    (before : found ⊆ ids) (ahead : queue ⊆ ids) :
    target.reachableFrom (found.map rename) (queue.map rename) =
      (source.reachableFrom found queue).map (List.map rename) := by
  fun_induction Module.reachableFrom source found queue with
  | case1 found =>
      rw [List.map_nil, Module.reachableFrom]
      rfl
  | case2 found id queue missing =>
      -- A closed set leaves no way to a function that is not there.
      obtain ⟨definition, present⟩ := copied.closed.present id (List.cons_subset.mp ahead).1
      rw [missing] at present
      cases present
  | case3 found id queue definition here seen ih =>
      obtain ⟨member, ahead⟩ := List.cons_subset.mp ahead
      rw [List.map_cons, reachableFrom_of_present (copied.copies id member definition here),
        if_pos ((copied.mem_map member before).mpr seen), ih before ahead]
  | case4 found id queue definition here new ih =>
      obtain ⟨member, ahead⟩ := List.cons_subset.mp ahead
      have visited : found ++ [id] ⊆ ids :=
        List.append_subset.mpr ⟨before, List.cons_subset.mpr ⟨member, List.nil_subset ids⟩⟩
      have queued : queue ++ definition.callees ⊆ ids := by
        refine List.append_subset.mpr ⟨ahead, ?_⟩
        rw [← calleesOf_of_get? here]
        exact copied.closed.callees id member
      have later := ih visited queued
      rw [List.map_append, List.map_append, List.map_singleton] at later
      rw [List.map_cons, reachableFrom_of_present (copied.copies id member definition here),
        if_neg (mt (copied.mem_map member before).mp new), definition.callees_mapCallees, later]

theorem reachable (copied : Copied source target rename ids) {entry : FuncId}
    (member : entry ∈ ids) :
    target.reachable (rename entry) = (source.reachable entry).map (List.map rename) :=
  copied.reachableFrom (List.nil_subset ids) (List.cons_subset.mpr ⟨member, List.nil_subset ids⟩)

/-- Copies that can be checked as the functions they are made from can also be run as those. -/
def embedding (copied : Copied source target rename ids) : Embedding where
  source := source
  target := target
  rename := rename
  covers := (· ∈ ids)
  copies := by
    intro id member
    obtain ⟨definition, present⟩ := copied.closed.present id member
    exact ⟨definition, _, present, copied.copies id member definition present,
      definition.mapCallees_mirrors rename⟩
  closed := copied.closed.callees

end Copied

theorem renumbering_injective {base : Nat} {order : List FuncId}
    (room : base + order.length ≤ capacity) {a b : FuncId} (left : a ∈ order) (right : b ∈ order)
    (same : renumbering base order a = renumbering base order b) : a = b := by
  have placeA := List.idxOf_lt_length_of_mem left
  have placeB := List.idxOf_lt_length_of_mem right
  have indices := congrArg FuncId.index same
  simp only [renumbering] at indices
  rw [FuncId.index_ofIndex (by omega), FuncId.index_ofIndex (by omega)] at indices
  exact (List.idxOf_inj left).mp (Nat.add_left_cancel indices)

/-- An import makes such copies of the functions that it appends. -/
theorem Copied.of_import {source target : Module} {order : List FuncId}
    (closed : source.Closed order) (room : target.size + order.length ≤ capacity) :
    Copied source ⟨target.functions ++ source.copiesOf target.size order⟩
      (renumbering target.size order) order where
  closed := closed
  copies _ member _ present := get?_renumbering closed room member present
  injective _ left _ right same := renumbering_injective room left right same

end Module
end RegisterMachine
