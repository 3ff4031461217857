import RegisterMachine.Proofs.Module.Import

/-!
What the operations on a module do to its table, and which function a name stands for.
-/
set_option autoImplicit false

namespace RegisterMachine

theorem FuncId.index_inj {a b : FuncId} : a.index = b.index ↔ a = b := by
  constructor
  · intro same
    cases a
    cases b
    exact congrArg FuncId.mk (UInt32.toNat_inj.mp same)
  · exact congrArg FuncId.index

/-! ## Last positions -/

section LastIndex

variable {α : Type} {p : α → Bool}

theorem lastIndex?_eq_none_iff {list : List α} :
    lastIndex? p list = none ↔ ∀ a ∈ list, p a = false := by
  induction list with
  | nil => simp [lastIndex?]
  | cons first rest ih =>
      simp only [lastIndex?, List.forall_mem_cons]
      cases later : lastIndex? p rest with
      | none =>
          cases p first with
          | true => simp
          | false => simpa using ih.mp later
      | some index =>
          have found : ¬ ∀ a ∈ rest, p a = false := by simp [← ih, later]
          simp only [reduceCtorEq, false_iff]
          exact fun all => found all.2

theorem getElem?_lastIndex? {list : List α} {index : Nat} (found : lastIndex? p list = some index) :
    ∃ a, list[index]? = some a ∧ p a = true := by
  induction list generalizing index with
  | nil => cases found
  | cons first rest ih =>
      simp only [lastIndex?] at found
      cases later : lastIndex? p rest with
      | some inner =>
          rw [later] at found
          cases found
          exact ih later
      | none =>
          simp only [later] at found
          split at found
          · cases found
            exact ⟨first, rfl, ‹_›⟩
          · cases found

theorem lastIndex?_append_of_some {front back : List α} {index : Nat}
    (found : lastIndex? p back = some index) :
    lastIndex? p (front ++ back) = some (front.length + index) := by
  induction front with
  | nil => simpa using found
  | cons first rest ih =>
      simp only [List.cons_append, lastIndex?, ih, List.length_cons, Option.some.injEq]
      omega

theorem lastIndex?_append_of_none {front back : List α} (absent : lastIndex? p back = none) :
    lastIndex? p (front ++ back) = lastIndex? p front := by
  induction front with
  | nil => exact absent
  | cons first rest ih => simp only [List.cons_append, lastIndex?, ih]

theorem eq_false_of_lastIndex?_lt {list : List α} {index later : Nat} {a : α}
    (found : lastIndex? p list = some index) (beyond : index < later)
    (here : list[later]? = some a) : p a = false := by
  induction list generalizing index later with
  | nil => cases found
  | cons first rest ih =>
      obtain ⟨position, rfl⟩ := Nat.exists_eq_add_of_lt beyond
      rw [List.getElem?_cons_succ] at here
      simp only [lastIndex?] at found
      cases behind : lastIndex? p rest with
      | some inner =>
          rw [behind] at found
          cases found
          exact ih behind (by omega) here
      | none => exact lastIndex?_eq_none_iff.mp behind a (List.mem_of_getElem? here)

end LastIndex

namespace Module

variable {module : Module} {id : FuncId} {definition : Definition}

/-! ## Appending -/

theorem get?_append (more : List Definition) (present : module.get? id = some definition) :
    get? ⟨module.functions ++ more⟩ id = some definition := by
  have inside : id.index < module.functions.length := (List.getElem?_eq_some_iff.mp present).1
  simpa [get?, List.getElem?_append_left inside] using present

/-- The number of a new function leads to it. -/
theorem get?_append_cons (room : module.size < capacity) (added : Definition)
    (more : List Definition) :
    get? ⟨module.functions ++ added :: more⟩ (.ofIndex module.size) = some added := by
  rw [get?, FuncId.index_ofIndex room]
  simp [size]

theorem declare_of_room (room : module.size < capacity) (name : String) (argCount : Slot) :
    module.declare name argCount =
      .ok (.ofIndex module.size, ⟨module.functions ++ [.declared name argCount]⟩) :=
  if_pos room

theorem declare_of_full (full : capacity ≤ module.size) (name : String) (argCount : Slot) :
    module.declare name argCount = .error .tooManyFunctions :=
  if_neg (Nat.not_lt.mpr full)

/-! ## Changing one function -/

theorem get?_modify_self (change : Definition → Definition) :
    (module.modify id change).get? id = (module.get? id).map change := by
  simp [modify, get?]

theorem get?_modify_of_ne {other : FuncId} (differs : id ≠ other)
    (change : Definition → Definition) :
    (module.modify id change).get? other = module.get? other := by
  have indices : id.index ≠ other.index := mt FuncId.index_inj.mp differs
  simp [modify, get?, indices]

theorem modify_modify (first second : Definition → Definition) :
    (module.modify id first).modify id second = module.modify id (second ∘ first) := by
  simp [modify, List.modify_modify_eq]

theorem modify_congr {change other : Definition → Definition}
    (agree : ∀ definition, module.get? id = some definition → change definition = other definition) :
    module.modify id change = module.modify id other := by
  refine congrArg Module.mk (List.ext_getElem? fun index => ?_)
  rw [List.getElem?_modify, List.getElem?_modify]
  split
  · rename_i here
    subst here
    cases present : module.functions[id.index]? with
    | none => rfl
    | some definition => exact congrArg some (agree definition present)
  · rfl

theorem modify_eq_self {change : Definition → Definition}
    (agree : ∀ definition, module.get? id = some definition → change definition = definition) :
    module.modify id change = module := by
  have same : module.modify id change = module.modify id fun definition => definition :=
    modify_congr agree
  rw [same]
  exact congrArg Module.mk (List.modify_id _ _)

theorem modify_append_cons (room : module.size < capacity) (added : Definition)
    (more : List Definition) (change : Definition → Definition) :
    modify ⟨module.functions ++ added :: more⟩ (.ofIndex module.size) change =
      ⟨module.functions ++ change added :: more⟩ := by
  refine congrArg Module.mk ?_
  rw [FuncId.index_ofIndex room, size, List.modify_eq_take_drop]
  simp

theorem truncate_append (more : List Definition) :
    truncate ⟨module.functions ++ more⟩ module.size = module := by
  simp [truncate, size]

/-- Giving a body to a function that has none. -/
theorem define_of_get? (present : module.get? id = some definition)
    (bodiless : definition.body = none) (code : List Instruction) (numLocals : Slot) :
    module.define id code numLocals =
      .ok (module.modify id fun definition =>
        { definition with body := some code, numLocals := numLocals }) := by
  simp [define, present, Definition.isDefined, bodiless]

/-! ## Names -/

section Names

variable {name : String} {added : Definition} {more : List Definition}

/-- A name stands for a function that has it. -/
theorem get?_of_lookup (numbered : module.size ≤ capacity) (found : module.lookup name = some id) :
    ∃ definition, module.get? id = some definition ∧ definition.name = some name := by
  obtain ⟨index, last, rfl⟩ := Option.map_eq_some_iff.mp found
  obtain ⟨definition, here, named⟩ := getElem?_lastIndex? last
  have inside : index < module.size := (List.getElem?_eq_some_iff.mp here).1
  refine ⟨definition, ?_, by simpa using named⟩
  rw [get?, FuncId.index_ofIndex (by omega)]
  exact here

theorem lookup_append_cons_of_absent (named : added.name = some name)
    (absent : ∀ definition ∈ more, definition.name ≠ some name) :
    lookup ⟨module.functions ++ added :: more⟩ name = some (.ofIndex module.size) := by
  have none : lastIndex? (fun definition : Definition => definition.name = some name) more = none :=
    lastIndex?_eq_none_iff.mpr fun definition member => by simpa using absent definition member
  have first : lastIndex? (fun definition : Definition => definition.name = some name)
      (added :: more) = some 0 := by
    simp [lastIndex?, none, named]
  rw [lookup, lastIndex?_append_of_some first]
  rfl

theorem lookup_append_cons_of_later (later : ∃ definition ∈ more, definition.name = some name) :
    ∃ index, module.size < index ∧ index ≤ module.size + more.length ∧
      lookup ⟨module.functions ++ added :: more⟩ name = some (.ofIndex index) := by
  obtain ⟨definition, member, named⟩ := later
  cases found : lastIndex? (fun definition : Definition => definition.name = some name) more with
  | none =>
      have absent := lastIndex?_eq_none_iff.mp found definition member
      simp [named] at absent
  | some index =>
      have inside : index < more.length := by
        obtain ⟨last, here, -⟩ := getElem?_lastIndex? found
        exact (List.getElem?_eq_some_iff.mp here).1
      have second : lastIndex? (fun definition : Definition => definition.name = some name)
          (added :: more) = some (index + 1) := by
        simp [lastIndex?, found]
      refine ⟨module.size + (index + 1), by omega, by omega, ?_⟩
      rw [lookup, lastIndex?_append_of_some second]
      rfl

theorem lookup_append_of_absent
    (absent : ∀ definition ∈ more, definition.name ≠ some name) :
    lookup ⟨module.functions ++ more⟩ name = module.lookup name := by
  have none : lastIndex? (fun definition : Definition => definition.name = some name) more = none :=
    lastIndex?_eq_none_iff.mpr fun definition member => by simpa using absent definition member
  rw [lookup, lastIndex?_append_of_none none, lookup]

/-- A later function than `id` goes by this name. -/
def Overtaken (module : Module) (id : FuncId) (name : String) : Prop :=
  ∃ later definition, id.index < later.index ∧ module.get? later = some definition ∧
    definition.name = some name

/-- A name stands for a function that has it exactly if no later one does. -/
theorem lookup_eq_some_iff (numbered : module.size ≤ capacity)
    (present : module.get? id = some definition) (named : definition.name = some name) :
    module.lookup name = some id ↔ ¬ module.Overtaken id name := by
  cases found : lastIndex? (fun definition : Definition => definition.name = some name)
      module.functions with
  | none =>
      have absent := lastIndex?_eq_none_iff.mp found definition (List.mem_of_getElem? present)
      simp [named] at absent
  | some index =>
      obtain ⟨last, there, chosen⟩ := getElem?_lastIndex? found
      have inside : index < module.size := (List.getElem?_eq_some_iff.mp there).1
      have number : (FuncId.ofIndex index).index = index := FuncId.index_ofIndex (by omega)
      rw [lookup, found, Option.map_some, Option.some.injEq]
      constructor
      · rintro rfl ⟨later, other, beyond, here, same⟩
        rw [number] at beyond
        have skipped := eq_false_of_lastIndex?_lt found beyond here
        simp [same] at skipped
      · intro latest
        rw [← FuncId.index_inj, number]
        rcases Nat.lt_trichotomy index id.index with before | same | after
        · have skipped := eq_false_of_lastIndex?_lt found before present
          simp [named] at skipped
        · exact same
        · refine absurd ⟨.ofIndex index, last, ?_, ?_, by simpa using chosen⟩ latest
          · rwa [number]
          · rwa [get?, number]

end Names

end Module
end RegisterMachine
