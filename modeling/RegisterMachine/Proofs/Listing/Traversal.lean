import RegisterMachine.Listing
import RegisterMachine.Proofs.Module.BreadthFirst

/-!
Which functions a listing covers.

A listing notes a function when it is first called, the search when it is taken from the queue. What
has been noted and not yet looked into is what a search would still find first in its queue, so both
come to the same functions in the same order. A listing passes over ids that are not in the module,
where the search gives up.
-/
set_option autoImplicit false

namespace RegisterMachine

namespace Module

variable {module : Module} {entry id : FuncId}

/-! ## Noting functions when they are called -/

theorem freshCallees_cons_of_known {known callees : List FuncId}
    (skipped : id ∈ known ∨ module.get? id = none) :
    module.freshCallees known (id :: callees) = module.freshCallees known callees := by
  rw [freshCallees, if_pos (by simpa using skipped)]

theorem freshCallees_cons_of_new {known callees : List FuncId} {definition : Definition}
    (new : id ∉ known) (present : module.get? id = some definition) :
    module.freshCallees known (id :: callees) =
      id :: module.freshCallees (id :: known) callees := by
  rw [freshCallees, if_neg (by simp [new, present])]

/-- Of the ids that are known, the order does not count. -/
theorem freshCallees_congr {known others : List FuncId} (same : ∀ id, id ∈ known ↔ id ∈ others)
    (callees : List FuncId) :
    module.freshCallees known callees = module.freshCallees others callees := by
  induction callees generalizing known others with
  | nil => rfl
  | cons id callees ih =>
      have more : ∀ other, other ∈ id :: known ↔ other ∈ id :: others := by
        intro other
        rw [List.mem_cons, List.mem_cons, same other]
      rw [freshCallees, freshCallees, ih same, ih more]
      simp only [same id]

theorem freshCallees_append (known front back : List FuncId) :
    module.freshCallees known (front ++ back) =
      module.freshCallees known front ++
        module.freshCallees (known ++ module.freshCallees known front) back := by
  induction front generalizing known with
  | nil => simp [freshCallees]
  | cons id front ih =>
      rw [List.cons_append, freshCallees, freshCallees]
      split
      · exact ih known
      · rw [ih, List.cons_append]
        congr 2
        refine freshCallees_congr (fun other => ?_) back
        simp only [List.mem_append, List.mem_cons]
        tauto

/-- What a search would still find is what a listing has noted and not yet looked into. -/
theorem discoverFrom_freshCallees (module : Module) (found queue : List FuncId) :
    module.discoverFrom found (module.freshCallees found queue) =
      module.surveyFrom found queue := by
  fun_induction surveyFrom module found queue with
  | case1 found => rw [freshCallees, discoverFrom]
  | case2 found id queue missing ih => rw [freshCallees_cons_of_known (.inr missing), ih]
  | case3 found id queue definition present visited ih =>
      rw [freshCallees_cons_of_known (.inl visited), ih]
  | case4 found id queue definition present new ih =>
      have moved : module.freshCallees (id :: found) queue =
          module.freshCallees (found ++ [id]) queue :=
        freshCallees_congr (fun other => by simp [or_comm]) queue
      rw [freshCallees_cons_of_new new present, discoverFrom, moved, calleesOf_of_get? present,
        ← ih, freshCallees_append, List.append_assoc, List.singleton_append]

theorem discover_eq_survey (present : module.has entry = true) :
    module.discover entry = module.survey entry := by
  obtain ⟨definition, present⟩ := Option.isSome_iff_exists.mp present
  rw [discover, survey, ← discoverFrom_freshCallees,
    freshCallees_cons_of_new List.not_mem_nil present, freshCallees]

/-! ## Chains of calls inside the module -/

end Module

namespace Listing

theorem has_entry (function : Function) : function.module.has function.id = true := by
  simp [Module.has, Module.get?, function.inModule]

/-- A listing covers all that calls lead to, in breadth-first order. -/
theorem breadthFirst_discover (function : Function) :
    function.module.BreadthFirst function.id (function.module.discover function.id) := by
  rw [Module.discover_eq_survey (has_entry function)]
  exact Module.breadthFirst_survey (has_entry function)

/-- The sections of a listing are those of the functions it covers. -/
theorem sections_eq (function : Function) :
    (sections function).map (fun shown => (shown.1, some shown.2)) =
      (function.module.discover function.id).map fun id => (id, function.module.get? id) := by
  rw [sections, List.map_filterMap, ← List.filterMap_eq_map]
  refine List.filterMap_congr fun id member => ?_
  obtain ⟨-, present⟩ := ((breadthFirst_discover function).members id).mp member
  obtain ⟨definition, present⟩ := Option.isSome_iff_exists.mp present
  simp [present]

end Listing
end RegisterMachine
