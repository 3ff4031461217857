import RegisterMachine.Proofs.Image.RoundTrip

/-!
One image for all copies of a function.

The search that numbers the functions of an image follows calls in the order of the code, and asks
of numbers only whether they are equal. A renumbering without clashes is therefore lost in it: the
copies are found in the order of the functions they were made from, and get the same places.
-/
set_option autoImplicit false

namespace RegisterMachine

theorem idxOf_map_of_injOn {α β : Type} [DecidableEq α] [DecidableEq β] {f : α → β} {a : α}
    {list : List α} (injective : ∀ other ∈ list, f other = f a → other = a) :
    (list.map f).idxOf (f a) = list.idxOf a := by
  induction list with
  | nil => rfl
  | cons first rest ih =>
      obtain ⟨here, later⟩ := List.forall_mem_cons.mp injective
      rw [List.map_cons]
      by_cases same : first = a
      · rw [same, List.idxOf_cons_self, List.idxOf_cons_self]
      · rw [List.idxOf_cons_ne _ (mt here same), List.idxOf_cons_ne _ same, ih later]

namespace Instruction

variable {first second : FuncId → FuncId}

theorem mapCallee_mapCallee (instruction : Instruction) :
    (instruction.mapCallee first).mapCallee second = instruction.mapCallee (second ∘ first) := by
  cases instruction <;> rfl

theorem mapCallee_congr {instruction : Instruction}
    (agree : ∀ callee ∈ instruction.callee?, first callee = second callee) :
    instruction.mapCallee first = instruction.mapCallee second := by
  cases instruction with
  | call dest callee args => rw [mapCallee, mapCallee, agree callee rfl]
  | _ => rfl

end Instruction

namespace Definition

variable {first second : FuncId → FuncId} {definition : Definition}

theorem mapCallees_mapCallees :
    (definition.mapCallees first).mapCallees second = definition.mapCallees (second ∘ first) := by
  have same : Instruction.mapCallee second ∘ Instruction.mapCallee first =
      Instruction.mapCallee (second ∘ first) :=
    funext Instruction.mapCallee_mapCallee
  cases body : definition.body <;> simp [mapCallees, body, same]

theorem mapCallees_congr (agree : ∀ callee ∈ definition.callees, first callee = second callee) :
    definition.mapCallees first = definition.mapCallees second := by
  cases body : definition.body with
  | none => simp [mapCallees, body]
  | some code =>
      have listed : definition.code = code := by simp [Definition.code, body]
      have same : code.map (Instruction.mapCallee first) = code.map (Instruction.mapCallee second) := by
        apply List.map_congr_left
        intro instruction member
        apply Instruction.mapCallee_congr
        intro callee called
        exact agree callee (List.mem_filterMap.mpr ⟨instruction, listed ▸ member, called⟩)
      simp [mapCallees, body, same]

end Definition

namespace Module.Copied

variable {source target : Module} {rename : FuncId → FuncId} {order : List FuncId}

theorem closed_map (copied : Copied source target rename order) :
    target.Closed (order.map rename) := by
  constructor
  · intro id member
    obtain ⟨original, listed, rfl⟩ := List.mem_map.mp member
    obtain ⟨definition, present⟩ := copied.closed.present original listed
    exact ⟨_, copied.copies original listed definition present⟩
  · intro id member callee called
    obtain ⟨original, listed, rfl⟩ := List.mem_map.mp member
    rw [copied.calleesOf listed] at called
    obtain ⟨target, call, rfl⟩ := List.mem_map.mp called
    exact List.mem_map_of_mem (copied.closed.callees original listed target call)

theorem renumbering_map (copied : Copied source target rename order) (base : Nat) {id : FuncId}
    (member : id ∈ order) :
    renumbering base (order.map rename) (rename id) = renumbering base order id := by
  have place : (order.map rename).idxOf (rename id) = order.idxOf id := by
    apply idxOf_map_of_injOn
    intro other listed same
    exact copied.injective other listed id member same
  rw [renumbering, renumbering, place]

theorem copiesOf_map (copied : Copied source target rename order) (base : Nat) :
    target.copiesOf base (order.map rename) = source.copiesOf base order := by
  -- Definitions that are missing are dropped from `copiesOf`. The lists are compared with all their
  -- entries, for which both orders must be closed.
  have entries : (target.copiesOf base (order.map rename)).map some =
      (source.copiesOf base order).map some := by
    rw [copied.closed_map.map_some_copiesOf, copied.closed.map_some_copiesOf, List.map_map]
    apply List.map_congr_left
    intro id member
    obtain ⟨definition, present⟩ := copied.closed.present id member
    have agree : ∀ callee ∈ definition.callees,
        (renumbering base (order.map rename) ∘ rename) callee = renumbering base order callee := by
      intro callee called
      rw [← calleesOf_of_get? present] at called
      exact copied.renumbering_map base (copied.closed.callees id member callee called)
    rw [Function.comp_apply, copied.copies id member definition present, present, Option.map_some,
      Option.map_some, Definition.mapCallees_mapCallees, Definition.mapCallees_congr agree]
  exact (List.map_inj_right fun _ _ => Option.some.inj).mp entries

end Module.Copied

namespace Image

variable {function copy : Function} {order : List FuncId} {rename : FuncId → FuncId}

theorem encode_of_copied (found : function.module.reachable function.id = .ok order)
    (few : order.length ≤ Module.capacity)
    (copied : Module.Copied function.module copy.module rename order)
    (entry : copy.id = rename function.id) : encode copy = encode function := by
  obtain ⟨-, -, member⟩ := Module.reachable_eq_ok found
  have search : copy.module.reachable copy.id = .ok (order.map rename) := by
    rw [entry, copied.reachable member, found]
    rfl
  have place : place (order.map rename) copy.id = place order function.id := by
    rw [entry, ← renumbering_zero, ← renumbering_zero, copied.renumbering_map 0 member]
  rw [encode_of_length_le search (by simpa using few), encode_of_length_le found few, place,
    copied.copiesOf_map]

theorem decode_eq_copied (found : function.module.reachable function.id = .ok order)
    (verified : function.verifyAll = .ok ()) (numbered : function.module.size ≤ Module.capacity)
    (addressable : ∀ definition ∈ function.module.functions, definition.Addressable)
    (stamp : Stamp) :
    ∃ decoded, decode stamp (write ⟨currentMagic, currentVersion, place order function.id,
        function.module.copiesOf 0 order⟩) = .ok decoded ∧
      decoded.verifyAll = .ok () ∧ decoded.id = place order function.id ∧
      Module.Copied function.module decoded.module (place order) order := by
  obtain ⟨-, -, member⟩ := Module.reachable_eq_ok found
  have copied := copied_of_reachable found numbered
  have passed := copied.checkReachable_eq_ok member verified
  obtain ⟨decoded, success, entry, table⟩ :=
    decode_eq_ok (reads_encoded found numbered addressable) passed stamp
  have same : decoded.module = ⟨function.module.copiesOf 0 order⟩ := congrArg Module.mk table
  rw [← same] at copied passed
  refine ⟨decoded, success, ?_, entry, copied⟩
  rw [Function.verifyAll, entry]
  exact passed

/-- A function has the same image wherever an import puts it, and the function that is read from the
image has that image again. More generally, the bytes depend on nothing but the functions that calls
lead to: any function that leads to the same ones under other numbers has the same image. -/
theorem image_canonical (target : Module) (function : Function) {order : List FuncId}
    (found : function.module.reachable function.id = .ok order)
    (room : target.size + function.module.size ≤ Module.capacity) :
    ∃ bytes, encode function = .ok bytes ∧
      (∃ id module, target.importFunction function = .ok (id, module) ∧
        ∀ stamp, ∃ copy, Function.of? stamp module id = some copy ∧ encode copy = .ok bytes) ∧
      (function.verifyAll = .ok () →
        (∀ definition ∈ function.module.functions, definition.Addressable) →
        ∀ stamp, ∃ decoded, decode stamp bytes = .ok decoded ∧ encode decoded = .ok bytes) ∧
      ∀ (other : Function) (rename : FuncId → FuncId),
        Module.Copied function.module other.module rename order →
        other.id = rename function.id → encode other = .ok bytes := by
  obtain ⟨distinct, closed, member⟩ := Module.reachable_eq_ok found
  have numbered : function.module.size ≤ Module.capacity := by omega
  have few := length_le_capacity found numbered
  have encoded := encode_of_reachable found numbered
  refine ⟨_, encoded, ?_, ?_, ?_⟩
  · have bound := closed.length_le_size distinct
    have fits : target.size + order.length ≤ Module.capacity := by omega
    refine ⟨_, _, Module.importFunction_eq_ok found fits, ?_⟩
    intro stamp
    have there := Module.get?_renumbering closed fits member function.get?_id
    have inModule := (List.getElem?_eq_some_iff.mp there).1
    refine ⟨_, dif_pos inModule, ?_⟩
    rw [encode_of_copied found few (Module.Copied.of_import closed fits) rfl, encoded]
  · intro verified addressable stamp
    obtain ⟨decoded, success, -, entry, copied⟩ :=
      decode_eq_copied found verified numbered addressable stamp
    exact ⟨decoded, success, (encode_of_copied found few copied entry).trans encoded⟩
  · intro other rename copied entry
    exact (encode_of_copied found few copied entry).trans encoded

/-- The functions of `poking` the other way round, with one between them that nothing calls. -/
def turned : Function where
  stamp := ⟨0, 1⟩
  module := ⟨[⟨some "poke", 1, 1, some [.constantInt32 1 9, .store .any 0 1, .leave 1]⟩,
    .declared "spare" 0,
    ⟨some "main", 0, 3, some [.allocate .any 0, .call 1 ⟨0⟩ [0], .load .any 2 0, .leave 2]⟩]⟩
  id := ⟨2⟩
  inModule := by decide

theorem image_canonical_turned :
    ∃ bytes, encode Machine.poking = .ok bytes ∧ encode turned = .ok bytes ∧
      (∃ id module copy,
        Module.importFunction ⟨[Definition.declared "spare" 0]⟩ Machine.poking = .ok (id, module) ∧
        Function.of? ⟨0, 2⟩ module id = some copy ∧ encode copy = .ok bytes) ∧
      ∃ decoded, decode ⟨0, 3⟩ bytes = .ok decoded ∧ encode decoded = .ok bytes := by
  have found : Machine.poking.module.reachable Machine.poking.id = .ok [⟨0⟩, ⟨1⟩] := by cbv
  have verified : Machine.poking.verifyAll = .ok () := by cbv
  obtain ⟨-, closed, -⟩ := Module.reachable_eq_ok found
  have copied : Module.Copied Machine.poking.module turned.module
      (fun id => if id = ⟨0⟩ then ⟨2⟩ else ⟨0⟩) [⟨0⟩, ⟨1⟩] := by
    refine ⟨closed, ?_, by decide⟩
    intro id member definition present
    rcases List.mem_pair.mp member with rfl | rfl
    · cases present
      decide
    · cases present
      decide
  obtain ⟨bytes, encoded, ⟨id, module, imported, copies⟩, decodes, same⟩ :=
    image_canonical ⟨[Definition.declared "spare" 0]⟩ Machine.poking found (by decide)
  obtain ⟨copy, known, again⟩ := copies ⟨0, 2⟩
  exact ⟨bytes, encoded, same turned _ copied rfl, ⟨id, module, copy, imported, known, again⟩,
    decodes verified (by decide) ⟨0, 3⟩⟩

end Image
end RegisterMachine
