import RegisterMachine.Function

/-!
The functions that can be reached through calls, and copying them into another module.
-/
set_option autoImplicit false

namespace RegisterMachine.Module

/-- How many functions of the module are not among `found`. It bounds how long a search through the
calls can go on. -/
def remaining (module : Module) (found : List FuncId) : Nat :=
  (module.ids.filter fun id => id ∉ found).length

theorem mem_ids_of_get?_eq_some {module : Module} {id : FuncId} {definition : Definition}
    (present : module.get? id = some definition) : id ∈ module.ids := by
  have inside : id.index < module.size := by
    simpa [get?, size] using (List.getElem?_eq_some_iff.mp present).1
  refine List.mem_map.mpr ⟨id.index, List.mem_range.mpr inside, ?_⟩
  cases id
  simp [FuncId.ofIndex, FuncId.index]

/-- Finding a further function of the module leaves fewer to find. -/
theorem remaining_lt {module : Module} {found more : List FuncId} {id : FuncId}
    (known : id ∈ module.ids) (new : id ∉ found)
    (keeps : ∀ other ∈ found, other ∈ more) (adds : id ∈ more) :
    module.remaining more < module.remaining found := by
  unfold remaining
  rw [← List.countP_eq_length_filter, ← List.countP_eq_length_filter]
  have weaken : ∀ ids : List FuncId,
      ids.countP (fun id => id ∉ more) ≤ ids.countP (fun id => id ∉ found) := by
    intro ids
    refine List.countP_mono_left fun other _ outside => ?_
    simp only [decide_eq_true_eq] at outside ⊢
    exact fun inside => outside (keeps other inside)
  obtain ⟨before, after, split⟩ := List.append_of_mem known
  have left := weaken before
  have right := weaken after
  simp only [split, List.countP_append, List.countP_cons, adds, new, not_true_eq_false,
    not_false_eq_true, decide_true, decide_false]
  simp only [Bool.false_eq_true, ↓reduceIte]
  omega

/-- Breadth-first search: `found` are the functions visited so far, in order, and `queue` those
still to visit. A visit to an id that is not in the module ends the search. -/
def reachableFrom (module : Module) (found : List FuncId) :
    List FuncId → Except BuildError (List FuncId)
  | [] => .ok found
  | id :: queue =>
    match _present : module.get? id with
    | none => .error (.unknownFunction id)
    | some definition =>
      if _visited : id ∈ found then module.reachableFrom found queue
      else module.reachableFrom (found ++ [id]) (queue ++ definition.callees)
termination_by queue => (module.remaining found, queue.length)
decreasing_by
  · exact Prod.Lex.right _ (by simp)
  · exact Prod.Lex.left _ _ (remaining_lt (mem_ids_of_get?_eq_some _present) _visited
      (fun other inside => by simp [inside]) (by simp))

theorem reachableFrom_of_missing {module : Module} {found queue : List FuncId} {id : FuncId}
    (missing : module.get? id = none) :
    module.reachableFrom found (id :: queue) = .error (.unknownFunction id) := by
  rw [reachableFrom]
  split
  · rfl
  · simp_all

/-- A visit to a function of the module: the first one queues what the function calls, later ones
do nothing. -/
theorem reachableFrom_of_present {module : Module} {found queue : List FuncId} {id : FuncId}
    {definition : Definition} (present : module.get? id = some definition) :
    module.reachableFrom found (id :: queue) =
      if id ∈ found then module.reachableFrom found queue
      else module.reachableFrom (found ++ [id]) (queue ++ definition.callees) := by
  rw [reachableFrom]
  split
  · simp_all
  · rename_i other same
    rw [present] at same
    cases same
    split <;> rfl

/-- The function `entry` and every function reachable from it, each once, in breadth-first order. -/
def reachable (module : Module) (entry : FuncId) : Except BuildError (List FuncId) :=
  module.reachableFrom [] [entry]

/-- The ids under which the functions `order` are found once they are appended to a module of
`base` functions. -/
def renumbering (base : Nat) (order : List FuncId) (id : FuncId) : FuncId :=
  .ofIndex (base + order.idxOf id)

/-- Append a copy of `function` and of everything it calls, with call targets renumbered. The id is
the copy's. -/
def importFunction (module : Module) (function : Function) : Except BuildError (FuncId × Module) := do
  let order ← function.module.reachable function.id
  let rename := renumbering module.size order
  let copies := (order.filterMap function.module.get?).map (Definition.mapCallees rename)
  if module.size + order.length ≤ capacity then
    .ok (rename function.id, ⟨module.functions ++ copies⟩)
  else .error .tooManyFunctions

end RegisterMachine.Module
