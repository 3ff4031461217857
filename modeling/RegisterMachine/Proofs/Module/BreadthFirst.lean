import Mathlib.Data.List.Forall2
import Mathlib.Data.List.Perm.Subperm
import RegisterMachine.Proofs.Module.CallGraph

/-!
The search through the calls of a module goes breadth-first.

`BreadthFirst` says what the breadth-first order of the functions of a module is, and there is just
one such order. A search that passes over the ids that are not in the module finds it. The search
proper gives the same order, unless a body calls an id that is not in the module; then it names the
first one that is called when the bodies are gone through in this order.
-/
set_option autoImplicit false

namespace RegisterMachine.Module

variable {module : Module} {entry id : FuncId}

/-- The module has a function of this number. -/
def has (module : Module) (id : FuncId) : Bool :=
  (module.get? id).isSome

theorem has_of_get? {definition : Definition} (present : module.get? id = some definition) :
    module.has id = true := by
  simp [has, present]

theorem has_of_missing (missing : module.get? id = none) : module.has id = false := by
  simp [has, missing]

theorem has_of_calls {callee : FuncId} (calls : module.Calls id callee) :
    module.has id = true := by
  cases present : module.get? id with
  | none => simp [Calls, calleesOf, present] at calls
  | some definition => exact has_of_get? present

/-! ## Distances -/

/-- A chain of `count` calls leads from `entry` to the function. -/
inductive Chain (module : Module) (entry : FuncId) : Nat → FuncId → Prop
  | entry : Chain module entry 0 entry
  | call {count : Nat} {caller callee : FuncId} (chain : Chain module entry count caller)
      (calls : module.Calls caller callee) : Chain module entry (count + 1) callee

/-- The number of calls in the shortest chains that lead from `entry` to the function. -/
structure Distance (module : Module) (entry id : FuncId) (count : Nat) : Prop where
  chain : module.Chain entry count id
  shortest : ∀ other, module.Chain entry other id → count ≤ other

theorem Chain.connected {count : Nat} (chain : module.Chain entry count id) :
    module.Connected entry id := by
  induction chain with
  | entry => exact .refl
  | call chain calls ih => exact ih.tail calls

theorem connected_of_measured {ids : List FuncId} {distances : List Nat}
    (measured : List.Forall₂ (module.Distance entry) ids distances) :
    ∀ id ∈ ids, module.Connected entry id := by
  induction measured with
  | nil => simp
  | cons distance rest ih => exact List.forall_mem_cons.mpr ⟨distance.chain.connected, ih⟩

/-! ## Breadth-first order -/

/-- The functions of the module among these ids, in the order in which they first occur. -/
def firsts (module : Module) (ids : List FuncId) : List FuncId :=
  (ids.filter module.has).eraseDups

/-- All functions that calls lead to from `entry`, in breadth-first order. -/
structure BreadthFirst (module : Module) (entry : FuncId) (order : List FuncId) : Prop where
  first : order.head? = some entry
  unique : order.Nodup
  members : ∀ id, id ∈ order ↔ module.Connected entry id ∧ module.has id = true
  /-- Functions nearer to the entry come first. -/
  distances : ∃ distances, List.Forall₂ (module.Distance entry) order distances ∧
    distances.Pairwise (· ≤ ·)
  /-- Functions stand in the order in which they are first called when the bodies are gone through
  in this very order. -/
  called : order = module.firsts (entry :: order.flatMap module.calleesOf)

theorem mem_firsts {ids : List FuncId} :
    id ∈ module.firsts ids ↔ id ∈ ids ∧ module.has id = true := by
  rw [firsts, List.mem_eraseDups, List.mem_filter]

/-- Ids that hold the entry and all functions they call hold all that calls lead to. -/
theorem mem_of_firsts_subset {ids : List FuncId}
    (closed : module.firsts (entry :: ids.flatMap module.calleesOf) ⊆ ids)
    (connected : module.Connected entry id) (present : module.has id = true) : id ∈ ids := by
  induction connected with
  | refl => exact closed (mem_firsts.mpr ⟨List.mem_cons_self, present⟩)
  | tail chain calls ih =>
      have called : _ ∈ ids.flatMap module.calleesOf :=
        List.mem_flatMap.mpr ⟨_, ih (has_of_calls calls), calls⟩
      exact closed (mem_firsts.mpr ⟨List.mem_cons_of_mem _ called, present⟩)

theorem firsts_append (front back : List FuncId) :
    module.firsts front <+: module.firsts (front ++ back) := by
  rw [firsts, firsts, List.filter_append, List.eraseDups_append]
  exact List.prefix_append _ _

theorem firsts_append_known {ids : List FuncId} (known : module.has id = true → id ∈ ids) :
    module.firsts (ids ++ [id]) = module.firsts ids := by
  cases present : module.has id with
  | false => simp [firsts, present]
  | true =>
      rw [firsts, List.filter_append, List.eraseDups_append]
      simp [firsts, present, List.removeAll, known present]

theorem firsts_append_new {ids : List FuncId} (present : module.has id = true) (new : id ∉ ids) :
    module.firsts (ids ++ [id]) = module.firsts ids ++ [id] := by
  rw [firsts, List.filter_append, List.eraseDups_append]
  simp [firsts, present, List.removeAll, new, List.eraseDups_cons]

/-! ## A search that passes over missing ids -/

/-- Breadth-first search: `found` are the functions visited so far, in order, and `queue` the ids
still to visit. -/
def surveyFrom (module : Module) (found : List FuncId) : List FuncId → List FuncId
  | [] => found
  | id :: queue =>
    match _present : module.get? id with
    | none => module.surveyFrom found queue
    | some definition =>
      if _visited : id ∈ found then module.surveyFrom found queue
      else module.surveyFrom (found ++ [id]) (queue ++ definition.callees)
termination_by queue => (module.remaining found, queue.length)
decreasing_by
  · exact Prod.Lex.right _ (by simp)
  · exact Prod.Lex.right _ (by simp)
  · exact Prod.Lex.left _ _ (remaining_lt (mem_ids_of_get?_eq_some _present) _visited
      (fun other inside => by simp [inside]) (by simp))

/-- Where a search from `entry` stands that has taken the ids `past` from its queue. What is left of
it is `near`, to which chains of `depth` calls lead, and after that `far`, to which chains of one
more call lead. -/
structure Searching (module : Module) (entry : FuncId) (depth : Nat)
    (past found near far : List FuncId) : Prop where
  queued : past ++ (near ++ far) = entry :: found.flatMap module.calleesOf
  taken : found = module.firsts past
  unique : found.Nodup
  chains : ∀ id ∈ near, module.Chain entry depth id
  longer : ∀ id ∈ far, module.Chain entry (depth + 1) id
  inner : ∀ count < depth, ∀ id, module.Chain entry count id → module.has id = true → id ∈ found
  edge : ∀ id, module.Chain entry depth id → module.has id = true → id ∈ found ∨ id ∈ near
  distances : ∃ distances, List.Forall₂ (module.Distance entry) found distances ∧
    distances.Pairwise (· ≤ ·) ∧ ∀ distance ∈ distances, distance ≤ depth

namespace Searching

variable {depth : Nat} {past found near far : List FuncId}

theorem start (module : Module) (entry : FuncId) : module.Searching entry 0 [] [] [entry] [] where
  queued := rfl
  taken := rfl
  unique := List.nodup_nil
  chains := by
    intro id member
    rw [List.mem_singleton.mp member]
    exact .entry
  longer := by simp
  inner := by simp
  edge := by
    intro id chain _
    cases chain
    exact .inr List.mem_cons_self
  distances := ⟨[], .nil, .nil, by simp⟩

/-- What a visited function calls has been visited or waits. -/
theorem frontier (searching : module.Searching entry depth past found near far) {callee : FuncId}
    (visited : id ∈ found) (calls : module.Calls id callee) (present : module.has callee = true) :
    callee ∈ found ∨ callee ∈ near ++ far := by
  have called : callee ∈ past ++ (near ++ far) := by
    rw [searching.queued]
    exact List.mem_cons_of_mem _ (List.mem_flatMap.mpr ⟨id, visited, calls⟩)
  rcases List.mem_append.mp called with taken | waiting
  · left
    rw [searching.taken]
    exact mem_firsts.mpr ⟨taken, present⟩
  · exact .inr waiting

/-- Once all ids of one depth are taken, those of the next one are at hand. -/
theorem deepen (searching : module.Searching entry depth past found [] far) :
    module.Searching entry (depth + 1) past found far [] where
  queued := by simpa using searching.queued
  taken := searching.taken
  unique := searching.unique
  chains := searching.longer
  longer := by simp
  inner := by
    intro count below id chain present
    rcases Nat.lt_succ_iff_lt_or_eq.mp below with below | rfl
    · exact searching.inner count below id chain present
    · simpa using searching.edge id chain present
  edge := by
    intro id chain present
    cases chain with
    | @call _ caller _ chain calls =>
        have visited : caller ∈ found := by
          simpa using searching.edge caller chain (has_of_calls calls)
        simpa using searching.frontier visited calls present
  distances := by
    obtain ⟨distances, measured, sorted, within⟩ := searching.distances
    refine ⟨distances, measured, sorted, ?_⟩
    intro distance member
    exact Nat.le_succ_of_le (within distance member)

/-- The next id of the queue is at the depth of the search, or all those of the next depth are. -/
theorem next {queue : List FuncId} (searching : module.Searching entry depth past found near far)
    (ahead : near ++ far = id :: queue) :
    ∃ depth near far, near ++ far = queue ∧
      module.Searching entry depth past found (id :: near) far := by
  cases near with
  | nil =>
      rw [List.nil_append] at ahead
      subst ahead
      exact ⟨depth + 1, queue, [], List.append_nil queue, searching.deepen⟩
  | cons first near =>
      rw [List.cons_append, List.cons.injEq] at ahead
      obtain ⟨rfl, rest⟩ := ahead
      exact ⟨depth, near, far, rest, searching⟩

theorem pass (searching : module.Searching entry depth past found (id :: near) far)
    (known : module.has id = true → id ∈ found) :
    module.Searching entry depth (past ++ [id]) found near far where
  queued := by simpa using searching.queued
  taken := by
    rw [firsts_append_known, ← searching.taken]
    intro present
    have visited := known present
    rw [searching.taken] at visited
    exact (mem_firsts.mp visited).1
  unique := searching.unique
  chains := (List.forall_mem_cons.mp searching.chains).2
  longer := searching.longer
  inner := searching.inner
  edge := by
    intro other chain present
    rcases searching.edge other chain present with visited | waiting
    · exact .inl visited
    · rcases List.mem_cons.mp waiting with rfl | waiting
      · exact .inl (known present)
      · exact .inr waiting
  distances := searching.distances

theorem visit (searching : module.Searching entry depth past found (id :: near) far)
    (present : module.has id = true) (new : id ∉ found) :
    module.Searching entry depth (past ++ [id]) (found ++ [id]) near
      (far ++ module.calleesOf id) where
  queued := by
    have queued := searching.queued
    simp only [List.flatMap_append, List.flatMap_singleton, ← List.cons_append, ← queued]
    simp
  taken := by
    rw [firsts_append_new present, ← searching.taken]
    intro before
    rw [searching.taken] at new
    exact new (mem_firsts.mpr ⟨before, present⟩)
  unique := by
    rw [List.nodup_append]
    refine ⟨searching.unique, by simp, ?_⟩
    rintro other visited _ last rfl
    rw [List.mem_singleton.mp last] at visited
    exact new visited
  chains := (List.forall_mem_cons.mp searching.chains).2
  longer := by
    intro other queued
    rcases List.mem_append.mp queued with waiting | called
    · exact searching.longer other waiting
    · exact (searching.chains id List.mem_cons_self).call called
  inner := by
    intro count below other chain there
    exact List.mem_append_left _ (searching.inner count below other chain there)
  edge := by
    intro other chain there
    rcases searching.edge other chain there with visited | waiting
    · exact .inl (List.mem_append_left _ visited)
    · rcases List.mem_cons.mp waiting with rfl | waiting
      · exact .inl (by simp)
      · exact .inr waiting
  distances := by
    obtain ⟨distances, measured, sorted, within⟩ := searching.distances
    -- A shorter chain would have brought the function among those found before.
    have distance : module.Distance entry id depth := by
      refine ⟨searching.chains id List.mem_cons_self, ?_⟩
      intro other chain
      exact Nat.le_of_not_lt fun below => new (searching.inner other below id chain present)
    refine ⟨distances ++ [depth], List.rel_append measured (.cons distance .nil), ?_, ?_⟩
    · rw [List.pairwise_append]
      refine ⟨sorted, by simp, ?_⟩
      intro earlier member last same
      rw [List.mem_singleton.mp same]
      exact within earlier member
    · intro other member
      rcases List.mem_append.mp member with member | last
      · exact within other member
      · exact Nat.le_of_eq (List.mem_singleton.mp last)

/-- A search goes on until its queue is empty. -/
theorem run {queue : List FuncId} (searching : module.Searching entry depth past found near far)
    (ahead : near ++ far = queue) :
    ∃ depth past, module.Searching entry depth past (module.surveyFrom found queue) [] [] := by
  fun_induction surveyFrom module found queue generalizing depth past near far with
  | case1 found =>
      obtain ⟨rfl, rfl⟩ := List.append_eq_nil_iff.mp ahead
      exact ⟨depth, past, searching⟩
  | case2 found id queue missing ih =>
      obtain ⟨depth, near, far, rest, searching⟩ := searching.next ahead
      refine ih (searching.pass ?_) rest
      simp [has_of_missing missing]
  | case3 found id queue definition present visited ih =>
      obtain ⟨depth, near, far, rest, searching⟩ := searching.next ahead
      exact ih (searching.pass fun _ => visited) rest
  | case4 found id queue definition present new ih =>
      obtain ⟨depth, near, far, rest, searching⟩ := searching.next ahead
      refine ih (searching.visit (has_of_get? present) new) ?_
      rw [← rest, calleesOf_of_get? present, List.append_assoc]

/-- A search that has ended has found all there is, in breadth-first order. -/
theorem breadthFirst (searching : module.Searching entry depth past found [] [])
    (present : module.has entry = true) : module.BreadthFirst entry found := by
  have queued : past = entry :: found.flatMap module.calleesOf := by simpa using searching.queued
  have taken := searching.taken
  rw [queued] at taken
  obtain ⟨distances, measured, sorted, -⟩ := searching.distances
  refine ⟨?_, searching.unique, ?_, ⟨distances, measured, sorted⟩, taken⟩
  · rw [taken]
    simp [firsts, present, List.eraseDups_cons]
  · intro id
    constructor
    · intro member
      have there := member
      rw [taken] at there
      exact ⟨connected_of_measured measured id member, (mem_firsts.mp there).2⟩
    · rintro ⟨connected, there⟩
      refine mem_of_firsts_subset ?_ connected there
      rw [← taken]
      exact List.Subset.refl found

end Searching

/-- The functions that a search from `entry` finds when it passes over missing ids. -/
def survey (module : Module) (entry : FuncId) : List FuncId :=
  module.surveyFrom [] [entry]

theorem breadthFirst_survey (present : module.has entry = true) :
    module.BreadthFirst entry (module.survey entry) := by
  obtain ⟨depth, past, ended⟩ := (Searching.start module entry).run rfl
  exact ended.breadthFirst present

/-! ## There is one breadth-first order -/

namespace BreadthFirst

variable {order other front : List FuncId}

theorem firsts_prefix (ordered : module.BreadthFirst entry order) (part : front <+: order) :
    module.firsts (entry :: front.flatMap module.calleesOf) <+: order := by
  obtain ⟨rest, rfl⟩ := part
  have called := ordered.called
  rw [List.flatMap_append, ← List.cons_append] at called
  rw [called]
  exact firsts_append _ _

/-- As long as functions are left, the bodies of those before them call a further one. -/
theorem grows (ordered : module.BreadthFirst entry order) (part : front <+: order)
    (short : front.length < order.length) :
    front.length < (module.firsts (entry :: front.flatMap module.calleesOf)).length := by
  by_contra stuck
  have closed : module.firsts (entry :: front.flatMap module.calleesOf) <+: front :=
    List.prefix_of_prefix_length_le (ordered.firsts_prefix part) part (Nat.le_of_not_lt stuck)
  have whole : order ⊆ front := by
    intro id member
    obtain ⟨connected, present⟩ := (ordered.members id).mp member
    exact mem_of_firsts_subset closed.subset connected present
  exact absurd (ordered.unique.subperm whole).length_le (Nat.not_le_of_lt short)

/-- The first functions of one order are the first of any other. -/
theorem take_prefix (ordered : module.BreadthFirst entry order)
    (also : module.BreadthFirst entry other) (count : Nat) : order.take count <+: other := by
  induction count with
  | zero => simp
  | succ count ih =>
      have part : order.take count <+: order := List.take_prefix count order
      by_cases short : (order.take count).length < order.length
      · -- The bodies of the first `count` functions call the next one in both orders.
        have longer := ordered.grows part short
        refine List.IsPrefix.trans ?_ (also.firsts_prefix ih)
        refine List.prefix_of_prefix_length_le (List.take_prefix _ order)
          (ordered.firsts_prefix part) ?_
        rw [List.length_take] at longer short ⊢
        omega
      · rw [List.length_take] at short
        rw [List.take_of_length_le (by omega)] at ih ⊢
        exact ih

theorem eq (ordered : module.BreadthFirst entry order) (also : module.BreadthFirst entry other) :
    order = other := by
  have part : order <+: other := by simpa using ordered.take_prefix also order.length
  have back : other <+: order := by simpa using also.take_prefix ordered other.length
  exact part.eq_of_length_le back.length_le

end BreadthFirst

/-! ## The search proper -/

/-- The first of these ids that is not in the module. -/
def firstMissing? (module : Module) (ids : List FuncId) : Option FuncId :=
  ids.find? fun id => !module.has id

theorem firstMissing?_cons_of_has {ids : List FuncId} (present : module.has id = true) :
    module.firstMissing? (id :: ids) = module.firstMissing? ids := by
  simp [firstMissing?, present]

theorem firstMissing?_eq_none {ids : List FuncId} :
    module.firstMissing? ids = none ↔ ∀ id ∈ ids, module.has id = true := by
  simp [firstMissing?]

theorem firstMissing?_eq_some {ids : List FuncId} {missing : FuncId} :
    module.firstMissing? ids = some missing ↔ module.has missing = false ∧
      ∃ before after, ids = before ++ missing :: after ∧ ∀ id ∈ before, module.has id = true := by
  simp [firstMissing?, List.find?_eq_some_iff_append]

theorem BreadthFirst.firstMissing?_eq_none_iff {order : List FuncId}
    (ordered : module.BreadthFirst entry order) :
    module.firstMissing? (order.flatMap module.calleesOf) = none ↔
      ∀ id callee, module.Connected entry id → module.Calls id callee →
        module.has callee = true := by
  rw [firstMissing?_eq_none]
  constructor
  · intro complete id callee connected calls
    have member : id ∈ order := (ordered.members id).mpr ⟨connected, has_of_calls calls⟩
    exact complete callee (List.mem_flatMap.mpr ⟨id, member, calls⟩)
  · intro complete callee called
    obtain ⟨id, member, calls⟩ := List.mem_flatMap.mp called
    exact complete id callee ((ordered.members id).mp member).1 calls

/-- Both searches find the same, as long as the search proper comes to no missing id. -/
theorem reachableFrom_eq_survey (module : Module) (found queue : List FuncId) :
    ∃ more, module.surveyFrom found queue = found ++ more ∧
      module.reachableFrom found queue =
        match module.firstMissing? (queue ++ more.flatMap module.calleesOf) with
        | none => .ok (found ++ more)
        | some missing => .error (.unknownFunction missing) := by
  fun_induction surveyFrom module found queue with
  | case1 found =>
      refine ⟨[], (List.append_nil found).symm, ?_⟩
      simp [reachableFrom, firstMissing?]
  | case2 found id queue missing ih =>
      obtain ⟨more, surveyed, -⟩ := ih
      refine ⟨more, surveyed, ?_⟩
      rw [reachableFrom_of_missing missing]
      simp [firstMissing?, has_of_missing missing]
  | case3 found id queue definition present visited ih =>
      obtain ⟨more, surveyed, searched⟩ := ih
      refine ⟨more, surveyed, ?_⟩
      rw [reachableFrom_of_present present, if_pos visited, searched, List.cons_append,
        firstMissing?_cons_of_has (has_of_get? present)]
  | case4 found id queue definition present new ih =>
      obtain ⟨more, surveyed, searched⟩ := ih
      refine ⟨id :: more, by simpa using surveyed, ?_⟩
      rw [reachableFrom_of_present present, if_neg new, searched, List.cons_append,
        firstMissing?_cons_of_has (has_of_get? present), List.flatMap_cons,
        calleesOf_of_get? present]
      simp

theorem reachable_eq_survey (module : Module) (entry : FuncId) :
    module.reachable entry =
      match module.firstMissing? (entry :: (module.survey entry).flatMap module.calleesOf) with
      | none => .ok (module.survey entry)
      | some missing => .error (.unknownFunction missing) := by
  obtain ⟨more, surveyed, searched⟩ := module.reachableFrom_eq_survey [] [entry]
  rw [reachable, searched, survey, surveyed]
  rfl

/-- If the entry is not in the module, the search names it. Otherwise there is one breadth-first
order of the functions that calls lead to, and the search returns it, unless one of these functions
calls an id that is not in the module; then it names the first such id that is met when their bodies
are gone through in this order. -/
theorem reachable_breadth_first (module : Module) (entry : FuncId) :
    (module.has entry = false → module.reachable entry = .error (.unknownFunction entry)) ∧
    (module.has entry = true →
      ∃ order, module.BreadthFirst entry order ∧
        (∀ other, module.BreadthFirst entry other → other = order) ∧
        ((∀ id callee, module.Connected entry id → module.Calls id callee →
            module.has callee = true) →
          module.reachable entry = .ok order ∧ ∀ id, id ∈ order ↔ module.Connected entry id) ∧
        ∀ id callee, module.Connected entry id → module.Calls id callee →
          module.has callee = false →
          ∃ before missing after, order.flatMap module.calleesOf = before ++ missing :: after ∧
            (∀ id ∈ before, module.has id = true) ∧ module.has missing = false ∧
            module.reachable entry = .error (.unknownFunction missing)) := by
  have search := module.reachable_eq_survey entry
  constructor
  · intro missing
    simpa [firstMissing?, missing] using search
  · intro present
    have ordered := breadthFirst_survey present
    rw [firstMissing?_cons_of_has present] at search
    refine ⟨module.survey entry, ordered, fun other also => also.eq ordered, ?_, ?_⟩
    · intro complete
      refine ⟨by rw [search, ordered.firstMissing?_eq_none_iff.mpr complete], ?_⟩
      intro id
      rw [ordered.members id, and_iff_left_iff_imp]
      intro connected
      cases connected with
      | refl => exact present
      | tail chain calls => exact complete _ id chain calls
    · intro id callee connected calls absent
      cases first : module.firstMissing? ((module.survey entry).flatMap module.calleesOf) with
      | none =>
          rw [ordered.firstMissing?_eq_none_iff.mp first id callee connected calls] at absent
          cases absent
      | some missing =>
          rw [first] at search
          obtain ⟨missed, before, after, split, met⟩ := firstMissing?_eq_some.mp first
          exact ⟨before, missing, after, split, met, missed, search⟩

/-- A function that calls the third one before the second, and the second from the third as well.
The last calls of these two are left open. -/
def spread (second third : FuncId) : Module :=
  ⟨[⟨some "top", 0, 0, some [.call 0 ⟨2⟩ [], .call 0 ⟨1⟩ [], .call 0 ⟨2⟩ [], .leave 0]⟩,
    ⟨some "left", 0, 0, some [.call 0 ⟨0⟩ [], .call 0 second [], .leave 0]⟩,
    ⟨some "right", 0, 0, some [.call 0 ⟨1⟩ [], .call 0 third [], .leave 0]⟩,
    ⟨some "end", 0, 0, some [.leave 0]⟩]⟩

theorem reachable_breadth_first_spread :
    (spread ⟨0⟩ ⟨3⟩).BreadthFirst ⟨0⟩ [⟨0⟩, ⟨2⟩, ⟨1⟩, ⟨3⟩] ∧
      ∃ order before after, (spread ⟨9⟩ ⟨7⟩).BreadthFirst ⟨0⟩ order ∧
        order.flatMap (spread ⟨9⟩ ⟨7⟩).calleesOf = before ++ ⟨7⟩ :: after ∧
        ∀ id ∈ before, (spread ⟨9⟩ ⟨7⟩).has id = true := by
  constructor
  · have found : (spread ⟨0⟩ ⟨3⟩).reachable ⟨0⟩ = .ok [⟨0⟩, ⟨2⟩, ⟨1⟩, ⟨3⟩] := by cbv
    obtain ⟨-, closed, start⟩ := reachable_eq_ok found
    obtain ⟨order, ordered, -, complete, -⟩ :=
      (reachable_breadth_first (spread ⟨0⟩ ⟨3⟩) ⟨0⟩).2 (by decide)
    obtain ⟨searched, -⟩ := complete fun id callee connected calls => by
      obtain ⟨definition, present⟩ := closed.present callee
        (closed.callees id (closed.mem_of_connected start connected) callee calls)
      exact has_of_get? present
    rw [found] at searched
    cases searched
    exact ordered
  · have failed : (spread ⟨9⟩ ⟨7⟩).reachable ⟨0⟩ = .error (.unknownFunction ⟨7⟩) := by cbv
    have calls : (spread ⟨9⟩ ⟨7⟩).Calls ⟨0⟩ ⟨2⟩ ∧ (spread ⟨9⟩ ⟨7⟩).Calls ⟨2⟩ ⟨7⟩ := by
      unfold Calls
      decide
    obtain ⟨order, ordered, -, -, dangling⟩ :=
      (reachable_breadth_first (spread ⟨9⟩ ⟨7⟩) ⟨0⟩).2 (by decide)
    obtain ⟨before, missing, after, split, met, -, searched⟩ :=
      dangling ⟨2⟩ ⟨7⟩ (.tail .refl calls.1) calls.2 (by decide)
    rw [failed] at searched
    cases searched
    exact ⟨order, before, after, ordered, split, met⟩

end RegisterMachine.Module
