import Mathlib.Logic.Relation
import RegisterMachine.Verify

/-!
The graph of calls in a module, and what the searches through it establish.

A search ends with a set of functions that is closed under calls. Such a set holds everything that
chains of calls lead to, so what a search has checked of its members holds of every function
connected to the entry.
-/
set_option autoImplicit false

namespace RegisterMachine

namespace Module

variable {module : Module}

/-- The function `caller` has a call of `callee`. -/
def Calls (module : Module) (caller callee : FuncId) : Prop :=
  callee ∈ module.calleesOf caller

/-- A chain of calls leads from the first function to the second. -/
def Connected (module : Module) : FuncId → FuncId → Prop :=
  Relation.ReflTransGen module.Calls

/-- Every function called from `visited` has been visited or waits in `pending`. -/
def Frontier (module : Module) (visited pending : List FuncId) : Prop :=
  ∀ id ∈ visited, ∀ callee ∈ module.calleesOf id, callee ∈ visited ∨ callee ∈ pending

/-- Functions of the module that call none but each other. -/
structure Closed (module : Module) (ids : List FuncId) : Prop where
  present : ∀ id ∈ ids, ∃ definition, module.get? id = some definition
  callees : ∀ id ∈ ids, ∀ callee ∈ module.calleesOf id, callee ∈ ids

theorem Closed.mem_of_connected {ids : List FuncId} {entry id : FuncId} (closed : module.Closed ids)
    (start : entry ∈ ids) (connected : module.Connected entry id) : id ∈ ids := by
  induction connected with
  | refl => exact start
  | tail chain call ih => exact closed.callees _ ih _ call

theorem calleesOf_of_get? {id : FuncId} {definition : Definition}
    (present : module.get? id = some definition) : module.calleesOf id = definition.callees := by
  simp [calleesOf, present]

namespace Frontier

variable {visited pending : List FuncId} {id : FuncId}

/-- A function that was visited before can be dropped. -/
theorem skip (frontier : module.Frontier visited (id :: pending)) (seen : id ∈ visited) :
    module.Frontier visited pending := by
  intro caller member callee call
  rcases frontier caller member callee call with inside | waiting
  · exact .inl inside
  · rcases List.mem_cons.mp waiting with rfl | waiting
    · exact .inl seen
    · exact .inr waiting

/-- A visit moves the function over and queues what it calls. -/
theorem visit {more queue : List FuncId} (frontier : module.Frontier visited (id :: pending))
    (moved : ∀ other, other ∈ more ↔ other = id ∨ other ∈ visited)
    (queued : ∀ other, other ∈ module.calleesOf id ∨ other ∈ pending → other ∈ queue) :
    module.Frontier more queue := by
  intro caller member callee call
  rcases (moved caller).mp member with rfl | member
  · exact .inr (queued callee (.inl call))
  · rcases frontier caller member callee call with inside | waiting
    · exact .inl ((moved callee).mpr (.inr inside))
    · rcases List.mem_cons.mp waiting with rfl | waiting
      · exact .inl ((moved callee).mpr (.inl rfl))
      · exact .inr (queued callee (.inr waiting))

end Frontier

/-! ## The depth-first check -/

theorem get?_of_check {id : FuncId} (passed : module.check id = .ok ()) :
    ∃ definition, module.get? id = some definition ∧ definition.isDefined = true ∧
      module.checkCode definition.argCount [] 0 definition.code = .ok () := by
  unfold check at passed
  split at passed
  · cases passed
  · split at passed
    · exact ⟨_, ‹_›, ‹_›, passed⟩
    · cases passed

/-- The functions that a depth-first check looks at, in order. A function that fails is the last. -/
def checksFrom (module : Module) (checked : List FuncId) : List FuncId → List FuncId
  | [] => []
  | id :: pending =>
    if _seen : id ∈ checked then module.checksFrom checked pending
    else match _passed : module.check id with
      | .error _ => [id]
      | .ok () =>
        id :: module.checksFrom (id :: checked) ((module.calleesOf id).reverse ++ pending)
termination_by pending => (module.remaining checked, pending.length)
decreasing_by
  · exact Prod.Lex.right _ (by simp)
  · exact Prod.Lex.left _ _ (remaining_lt (mem_ids_of_check_eq_ok _passed) _seen
      (fun other inside => by simp [inside]) (by simp))

/-- The functions that the check of `entry` looks at, in order. -/
def checks (module : Module) (entry : FuncId) : List FuncId :=
  module.checksFrom [] [entry]

theorem forM_eq_ok_iff {α ε : Type} {test : α → Except ε Unit} {items : List α} :
    forM items test = .ok () ↔ ∀ item ∈ items, test item = .ok () := by
  induction items with
  | nil => simp [List.forM_nil, pure, Except.pure]
  | cons item rest ih =>
      rw [List.forM_cons, List.forall_mem_cons, ← ih]
      cases test item with
      | error error => simp [bind, Except.bind]
      | ok value => simp [bind, Except.bind]

/-- The depth-first check is a check of these functions one after the other. -/
theorem checkFrom_eq_forM (module : Module) (checked pending : List FuncId) :
    module.checkFrom checked pending = forM (module.checksFrom checked pending) module.check := by
  fun_induction checksFrom module checked pending with
  | case1 checked =>
      rw [checkFrom]
      rfl
  | case2 checked id pending seen ih =>
      rw [checkFrom_of_checked seen]
      exact ih
  | case3 checked id pending new error failed =>
      rw [checkFrom_of_error new failed, List.forM_cons, failed]
      rfl
  | case4 checked id pending new passed ih =>
      rw [checkFrom_of_ok new passed, List.forM_cons, passed]
      exact ih

/-- Each function is checked once. -/
theorem nodup_checksFrom (module : Module) (checked pending : List FuncId) :
    (module.checksFrom checked pending).Nodup ∧
      ∀ id ∈ module.checksFrom checked pending, id ∉ checked := by
  fun_induction checksFrom module checked pending with
  | case1 checked => simp
  | case2 checked id pending seen ih => exact ih
  | case3 checked id pending new error failed => simpa using new
  | case4 checked id pending new passed ih =>
      obtain ⟨distinct, fresh⟩ := ih
      constructor
      · refine List.nodup_cons.mpr ⟨fun again => ?_, distinct⟩
        exact fresh id again List.mem_cons_self
      · refine List.forall_mem_cons.mpr ⟨new, ?_⟩
        intro other later seen
        exact fresh other later (List.mem_cons_of_mem _ seen)

theorem connected_of_mem_checksFrom {entry : FuncId} {checked pending : List FuncId}
    (ahead : ∀ id ∈ pending, module.Connected entry id) :
    ∀ id ∈ module.checksFrom checked pending, module.Connected entry id := by
  fun_induction checksFrom module checked pending with
  | case1 checked => simp
  | case2 checked id pending seen ih => exact ih (List.forall_mem_cons.mp ahead).2
  | case3 checked id pending new error failed =>
      simpa using (List.forall_mem_cons.mp ahead).1
  | case4 checked id pending new passed ih =>
      obtain ⟨connected, ahead⟩ := List.forall_mem_cons.mp ahead
      refine List.forall_mem_cons.mpr ⟨connected, ih ?_⟩
      intro other queued
      rcases List.mem_append.mp queued with called | waiting
      · exact connected.tail (List.mem_reverse.mp called)
      · exact ahead other waiting

/-- A check that passes has visited a closed set of functions. -/
theorem closed_checksFrom {checked pending : List FuncId}
    (passed : module.checkFrom checked pending = .ok ())
    (before : ∀ id ∈ checked, module.check id = .ok ())
    (frontier : module.Frontier checked pending) :
    module.Closed ((module.checksFrom checked pending).reverse ++ checked) ∧
      ∀ id ∈ pending, id ∈ (module.checksFrom checked pending).reverse ++ checked := by
  -- The induction follows the search; the frontier is what each visit keeps.
  fun_induction checksFrom module checked pending with
  | case1 checked =>
      refine ⟨⟨?_, ?_⟩, by simp⟩
      · intro id member
        obtain ⟨definition, present, -⟩ := get?_of_check (before id member)
        exact ⟨definition, present⟩
      · intro id member callee call
        simpa using frontier id member callee call
  | case2 checked id pending seen ih =>
      rw [checkFrom_of_checked seen] at passed
      obtain ⟨closed, reached⟩ := ih passed before (frontier.skip seen)
      exact ⟨closed, List.forall_mem_cons.mpr ⟨by simp [seen], reached⟩⟩
  | case3 checked id pending new error failed =>
      rw [checkFrom_of_error new failed] at passed
      cases passed
  | case4 checked id pending new succeeded ih =>
      have moved : module.Frontier (id :: checked) ((module.calleesOf id).reverse ++ pending) :=
        frontier.visit (by simp) (by simp)
      rw [checkFrom_of_ok new succeeded] at passed
      obtain ⟨closed, reached⟩ :=
        ih passed (List.forall_mem_cons.mpr ⟨succeeded, before⟩) moved
      simp only [List.reverse_cons, List.append_assoc, List.singleton_append]
      refine ⟨closed, List.forall_mem_cons.mpr ⟨by simp, ?_⟩⟩
      intro other waiting
      exact reached other (List.mem_append_right _ waiting)

/-- What a check that passes has visited is closed, and all of it passes. -/
theorem checkFrom_eq_ok {checked pending : List FuncId}
    (passed : module.checkFrom checked pending = .ok ())
    (before : ∀ id ∈ checked, module.check id = .ok ())
    (frontier : module.Frontier checked pending) :
    ∃ ids : List FuncId, module.Closed ids ∧ (∀ id ∈ ids, module.check id = .ok ()) ∧
      (∀ id ∈ checked, id ∈ ids) ∧ ∀ id ∈ pending, id ∈ ids := by
  obtain ⟨closed, reached⟩ := closed_checksFrom passed before frontier
  refine ⟨_, closed, ?_, fun id member => List.mem_append_right _ member, reached⟩
  rw [checkFrom_eq_forM, forM_eq_ok_iff] at passed
  intro id member
  rcases List.mem_append.mp member with visited | member
  · exact passed id (List.mem_reverse.mp visited)
  · exact before id member

/-- Every function that calls lead to from a checked entry passes the check. -/
theorem check_of_connected {entry id : FuncId} (passed : module.checkReachable entry = .ok ())
    (connected : module.Connected entry id) : module.check id = .ok () := by
  obtain ⟨ids, closed, sound, -, reached⟩ :=
    checkFrom_eq_ok passed (by simp) (fun id member => absurd member (by simp))
  exact sound id (closed.mem_of_connected (reached entry (by simp)) connected)

/-! ## The breadth-first search -/

/-- What a search returns begins with what it had found, names every function once, holds all that
was queued, and is closed. -/
theorem reachableFrom_eq_ok {found queue order : List FuncId}
    (success : module.reachableFrom found queue = .ok order) (unique : found.Nodup)
    (present : ∀ id ∈ found, ∃ definition, module.get? id = some definition)
    (frontier : module.Frontier found queue) :
    found <+: order ∧ order.Nodup ∧ module.Closed order ∧ ∀ id ∈ queue, id ∈ order := by
  fun_induction reachableFrom module found queue with
  | case1 found =>
      cases success
      refine ⟨List.prefix_refl _, unique, ⟨present, ?_⟩, by simp⟩
      intro id member callee call
      simpa using frontier id member callee call
  | case2 found id queue missing => cases success
  | case3 found id queue definition here seen ih =>
      obtain ⟨kept, distinct, closed, reached⟩ := ih success unique present (frontier.skip seen)
      refine ⟨kept, distinct, closed, ?_⟩
      intro other member
      rcases List.mem_cons.mp member with rfl | member
      · exact kept.subset seen
      · exact reached other member
  | case4 found id queue definition here new ih =>
      have moved : module.Frontier (found ++ [id]) (queue ++ definition.callees) :=
        frontier.visit (by simp [or_comm]) (by simp [calleesOf_of_get? here, or_comm])
      have fresh : (found ++ [id]).Nodup := by
        rw [List.nodup_append]
        refine ⟨unique, by simp, ?_⟩
        intro other member last inside
        rw [List.mem_singleton.mp inside]
        rintro rfl
        exact new member
      have still : ∀ other ∈ found ++ [id], ∃ definition, module.get? other = some definition := by
        intro other member
        rcases List.mem_append.mp member with member | member
        · exact present other member
        · exact ⟨definition, List.mem_singleton.mp member ▸ here⟩
      obtain ⟨kept, distinct, closed, reached⟩ := ih success fresh still moved
      refine ⟨(List.prefix_append found [id]).trans kept, distinct, closed, ?_⟩
      intro other member
      rcases List.mem_cons.mp member with rfl | member
      · exact kept.subset (by simp)
      · exact reached other (by simp [member])

/-- The functions that a search from `entry` returns. -/
theorem reachable_eq_ok {entry : FuncId} {order : List FuncId}
    (success : module.reachable entry = .ok order) :
    order.Nodup ∧ module.Closed order ∧ entry ∈ order := by
  obtain ⟨-, distinct, closed, reached⟩ := reachableFrom_eq_ok success (by simp) (by simp)
    (fun id member => absurd member (by simp))
  exact ⟨distinct, closed, reached entry (by simp)⟩

theorem connected_of_reachableFrom {entry : FuncId} {found queue order : List FuncId}
    (success : module.reachableFrom found queue = .ok order)
    (before : ∀ id ∈ found, module.Connected entry id)
    (ahead : ∀ id ∈ queue, module.Connected entry id) :
    ∀ id ∈ order, module.Connected entry id := by
  fun_induction reachableFrom module found queue with
  | case1 found =>
      cases success
      exact before
  | case2 found id queue missing => cases success
  | case3 found id queue definition here seen ih =>
      exact ih success before (List.forall_mem_cons.mp ahead).2
  | case4 found id queue definition here new ih =>
      obtain ⟨connected, ahead⟩ := List.forall_mem_cons.mp ahead
      refine ih success ?_ ?_
      · intro other member
        rcases List.mem_append.mp member with member | member
        · exact before other member
        · exact List.mem_singleton.mp member ▸ connected
      · intro other member
        rcases List.mem_append.mp member with member | called
        · exact ahead other member
        · refine connected.tail ?_
          rwa [Calls, calleesOf_of_get? here]

/-- A search finds nothing but what calls lead to. -/
theorem connected_of_mem_reachable {entry id : FuncId} {order : List FuncId}
    (success : module.reachable entry = .ok order) (member : id ∈ order) :
    module.Connected entry id := by
  refine connected_of_reachableFrom success (by simp) ?_ id member
  intro other queued
  rw [List.mem_singleton.mp queued]
  exact .refl

/-- A search finds its entry first. -/
theorem reachable_eq_cons {entry : FuncId} {order : List FuncId}
    (success : module.reachable entry = .ok order) : ∃ callees, order = entry :: callees := by
  obtain ⟨-, closed, member⟩ := reachable_eq_ok success
  obtain ⟨definition, present⟩ := closed.present entry member
  rw [reachable, reachableFrom_of_present present, if_neg (by simp)] at success
  have frontier : module.Frontier [entry] definition.callees := by
    intro id visited callee call
    rw [List.mem_singleton.mp visited, calleesOf_of_get? present] at call
    exact .inr call
  obtain ⟨⟨callees, rfl⟩, -⟩ := reachableFrom_eq_ok success (by simp)
    (fun id visited => ⟨definition, List.mem_singleton.mp visited ▸ present⟩) frontier
  exact ⟨callees, rfl⟩

theorem Closed.exists_reachableFrom {ids found queue : List FuncId} (closed : module.Closed ids)
    (ahead : queue ⊆ ids) : ∃ order, module.reachableFrom found queue = .ok order := by
  fun_induction reachableFrom module found queue with
  | case1 found => exact ⟨found, rfl⟩
  | case2 found id queue missing =>
      obtain ⟨definition, present⟩ := closed.present id (List.cons_subset.mp ahead).1
      rw [missing] at present
      cases present
  | case3 found id queue definition here seen ih => exact ih (List.cons_subset.mp ahead).2
  | case4 found id queue definition here new ih =>
      obtain ⟨member, ahead⟩ := List.cons_subset.mp ahead
      apply ih
      apply List.append_subset.mpr
      constructor
      · exact ahead
      · intro callee called
        refine closed.callees id member callee ?_
        rwa [calleesOf_of_get? here]

/-- Where the depth-first check passes, the breadth-first search succeeds. -/
theorem exists_reachable_of_checkReachable {entry : FuncId}
    (passed : module.checkReachable entry = .ok ()) :
    ∃ order, module.reachable entry = .ok order := by
  obtain ⟨ids, closed, -, -, reached⟩ :=
    checkFrom_eq_ok passed (by simp) (fun id member => absurd member (by simp))
  exact closed.exists_reachableFrom reached

end Module
end RegisterMachine
