import Mathlib.Data.List.Perm.Subperm
import RegisterMachine.Proofs.Machine.Lockstep

/-!
Copying functions into another module.

An import appends the functions that calls lead to, in the order of the search, and renumbers their
calls; what was there before stays. The copies run in lockstep with the functions they were made
from.
-/
set_option autoImplicit false

namespace RegisterMachine

theorem FuncId.index_ofIndex {index : Nat} (small : index < Module.capacity) :
    (FuncId.ofIndex index).index = index :=
  UInt32.toNat_ofNat_of_lt' small

namespace Module

section Closed

variable {source : Module} {order : List FuncId}

/-- A search finds no more functions than there are. -/
theorem Closed.length_le_size (closed : source.Closed order) (distinct : order.Nodup) :
    order.length ≤ source.size := by
  have known : order ⊆ source.ids := by
    intro id member
    obtain ⟨definition, present⟩ := closed.present id member
    exact mem_ids_of_get?_eq_some present
  have bound := (distinct.subperm known).length_le
  simpa [ids] using bound

/-- The definitions of functions that are all there, one for each. -/
theorem Closed.map_some_filterMap (closed : source.Closed order) :
    (order.filterMap source.get?).map some = order.map source.get? := by
  have present := closed.present
  clear closed
  induction order with
  | nil => rfl
  | cons id rest ih =>
      obtain ⟨definition, here⟩ := present id (by simp)
      rw [List.filterMap_cons_some here, List.map_cons, List.map_cons, here,
        ih fun other member => present other (by simp [member])]

end Closed

/-- The functions that an import appends for `order`. -/
def copiesOf (source : Module) (base : Nat) (order : List FuncId) : List Definition :=
  (order.filterMap source.get?).map (Definition.mapCallees (renumbering base order))

variable {target : Module} {function : Function} {order : List FuncId}

theorem importFunction_eq_ok (found : function.module.reachable function.id = .ok order)
    (room : target.size + order.length ≤ capacity) :
    target.importFunction function =
      .ok (renumbering target.size order function.id,
        ⟨target.functions ++ copiesOf function.module target.size order⟩) := by
  simp only [importFunction, found, copiesOf]
  exact if_pos room

theorem of_importFunction_eq_ok {id : FuncId} {after : Module}
    (imported : target.importFunction function = .ok (id, after)) :
    ∃ order, function.module.reachable function.id = .ok order ∧
      target.size + order.length ≤ capacity ∧ id = renumbering target.size order function.id ∧
      after = ⟨target.functions ++ copiesOf function.module target.size order⟩ := by
  obtain ⟨order, found, appended⟩ := bind_eq_ok imported
  dsimp only at appended
  split at appended
  · cases appended
    exact ⟨order, found, ‹_›, rfl, rfl⟩
  · cases appended

theorem length_copiesOf {source : Module} {base : Nat} (closed : source.Closed order) :
    (source.copiesOf base order).length = order.length := by
  have lengths := congrArg List.length closed.map_some_filterMap
  simpa [copiesOf] using lengths

theorem getElem?_copiesOf {source : Module} {base position : Nat} {id : FuncId}
    {definition : Definition} (closed : source.Closed order) (here : order[position]? = some id)
    (present : source.get? id = some definition) :
    (source.copiesOf base order)[position]? =
      some (definition.mapCallees (renumbering base order)) := by
  have entry := congrArg (·[position]?) closed.map_some_filterMap
  simp only [List.getElem?_map, here, Option.map_some, present] at entry
  obtain ⟨copied, copiedHere, same⟩ := Option.map_eq_some_iff.mp entry
  cases same
  rw [copiesOf, List.getElem?_map, copiedHere]
  rfl

/-- The copies stand behind what was there, in the order of the search. -/
theorem getElem?_append_copiesOf {source : Module} {position : Nat} {id : FuncId}
    {definition : Definition} (closed : source.Closed order) (here : order[position]? = some id)
    (present : source.get? id = some definition) :
    (target.functions ++ source.copiesOf target.size order)[target.size + position]? =
      some (definition.mapCallees (renumbering target.size order)) := by
  rw [List.getElem?_append_right (by simp [size])]
  simp only [size, Nat.add_sub_cancel_left]
  exact getElem?_copiesOf closed here present

/-- A copy is found under the number that its function is given. -/
theorem get?_renumbering {source : Module} {id : FuncId} {definition : Definition}
    (closed : source.Closed order) (room : target.size + order.length ≤ capacity)
    (member : id ∈ order) (present : source.get? id = some definition) :
    get? ⟨target.functions ++ source.copiesOf target.size order⟩
        (renumbering target.size order id) =
      some (definition.mapCallees (renumbering target.size order)) := by
  have position := List.idxOf_lt_length_of_mem member
  have index : (renumbering target.size order id).index = target.size + order.idxOf id :=
    FuncId.index_ofIndex (by omega)
  simp only [get?, index]
  exact getElem?_append_copiesOf closed (List.getElem?_idxOf member) present

/-- The functions of a closed set and the copies that an import makes of them. -/
def importEmbedding (target source : Module) (order : List FuncId) (closed : source.Closed order)
    (room : target.size + order.length ≤ capacity) : Embedding where
  source := source
  target := ⟨target.functions ++ source.copiesOf target.size order⟩
  rename := renumbering target.size order
  covers := (· ∈ order)
  copies := by
    intro id member
    obtain ⟨definition, present⟩ := closed.present id member
    exact ⟨definition, _, present, get?_renumbering closed room member present,
      definition.mapCallees_mirrors _⟩
  closed := closed.callees

/-- An import keeps what was there, appends the functions that the search finds, and gives a copy
that runs as the function does: it starts in the same way, and after any number of steps the
machines have equal stacks, counts and depths, stand at the same places of functions that correspond
under the renumbering, and end their next step in the same way. -/
theorem import_runs_in_lockstep (target : Module) (function : Function) {order : List FuncId}
    (found : function.module.reachable function.id = .ok order)
    (room : target.size + function.module.size ≤ capacity) :
    ∃ id module, target.importFunction function = .ok (id, module) ∧
      target.functions <+: module.functions ∧
      module.size = target.size + order.length ∧
      (∀ (position : Nat) (old : FuncId), order[position]? = some old →
        ∃ definition, function.module.get? old = some definition ∧
          module.functions[target.size + position]? =
            some (definition.mapCallees (renumbering target.size order))) ∧
      ∀ stamp, ∃ copy, Function.of? stamp module id = some copy ∧
        ∀ (env : Environment) (before : Machine) (args : List Value),
          (before.start env.limits copy args).1 = (before.start env.limits function args).1 ∧
          ∀ (count : Nat) (machine copied : Machine),
            machine = (before.start env.limits function args).2.after env count →
            copied = (before.start env.limits copy args).2.after env count →
            copied.stack = machine.stack ∧ copied.steps = machine.steps ∧
            copied.depth = machine.depth ∧
            List.Forall₂ (fun frame frame' => frame'.bottom = frame.bottom ∧
                frame'.pc = frame.pc ∧ frame.function.id ∈ order ∧
                frame'.function.id = renumbering target.size order frame.function.id)
              machine.frames copied.frames ∧
            (copied.step env).1 = (machine.step env).1 := by
  obtain ⟨distinct, closed, member⟩ := reachable_eq_ok found
  have bound := closed.length_le_size distinct
  have fits : target.size + order.length ≤ capacity := by omega
  refine ⟨_, _, importFunction_eq_ok found fits, List.prefix_append _ _, ?_, ?_, ?_⟩
  · simp [size, length_copiesOf closed]
  · intro position old here
    obtain ⟨definition, present⟩ := closed.present old (List.mem_of_getElem? here)
    exact ⟨definition, present, getElem?_append_copiesOf closed here present⟩
  · intro stamp
    let embedding := importEmbedding target function.module order closed fits
    have copyThere := get?_renumbering closed fits member function.get?_id
    have inModule := (List.getElem?_eq_some_iff.mp copyThere).1
    refine ⟨⟨stamp, embedding.target, embedding.rename function.id, inModule⟩, dif_pos inModule,
      ?_⟩
    intro env before args
    have relates : embedding.Relates function
        ⟨stamp, embedding.target, embedding.rename function.id, inModule⟩ :=
      ⟨rfl, rfl, member, rfl⟩
    have started := relates.start env.limits before args
    refine ⟨started.status, ?_⟩
    rintro count machine copied rfl rfl
    have lockstep := started.lockstep.after env count
    refine ⟨lockstep.stack, lockstep.steps, lockstep.frames.length_eq.symm, ?_,
      (lockstep.step env).status⟩
    refine lockstep.frames.imp ?_
    intro frame frame' related
    exact ⟨related.bottom, related.pc, related.function.covered, related.function.renamed⟩

/-- The copy of `poking` stands after what was there, and three steps of it are three steps of
`poking`. -/
theorem import_runs_in_lockstep_poking :
    ∃ id module copy, importFunction ⟨[Definition.declared "spare" 0]⟩ Machine.poking =
        .ok (id, module) ∧ module.size = 3 ∧ Function.of? ⟨0, 1⟩ module id = some copy ∧
      ((Machine.idle.start .unlimited copy []).2.after ⟨.unlimited, none, none⟩ 3).stack =
        (Machine.pokingAfter 3).stack := by
  have found : Machine.poking.module.reachable Machine.poking.id = .ok [⟨0⟩, ⟨1⟩] := by cbv
  obtain ⟨id, module, imported, -, size, -, runs⟩ :=
    import_runs_in_lockstep ⟨[Definition.declared "spare" 0]⟩ Machine.poking found (by decide)
  obtain ⟨copy, known, lockstep⟩ := runs ⟨0, 1⟩
  obtain ⟨-, agree⟩ := lockstep ⟨.unlimited, none, none⟩ .idle []
  exact ⟨id, module, copy, imported, size, known, (agree 3 _ _ rfl rfl).1⟩

end Module
end RegisterMachine
