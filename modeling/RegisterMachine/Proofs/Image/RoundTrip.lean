import RegisterMachine.Proofs.Image.Codec
import RegisterMachine.Proofs.Module.Renumbering

/-!
Images and the functions they were made from.

The table of an image holds the functions that a search from the entry finds, in its order, with
calls renumbered to places in the table. Reading an image gives this table back, and verifies it
with the same outcome as the original functions. It takes all bytes of the image and none beyond.
-/
set_option autoImplicit false

namespace RegisterMachine

theorem Instruction.args?_mapCallee (rename : FuncId → FuncId) (instruction : Instruction) :
    (instruction.mapCallee rename).args? = instruction.args? := by
  cases instruction <;> rfl

theorem Definition.Addressable.mapCallees {definition : Definition}
    (addressable : definition.Addressable) (rename : FuncId → FuncId) :
    (definition.mapCallees rename).Addressable where
  name := addressable.name
  code := by
    rw [definition.code_mapCallees, List.length_map]
    exact addressable.code
  args := by
    intro copied member args given
    rw [definition.code_mapCallees] at member
    obtain ⟨instruction, listed, rfl⟩ := List.mem_map.mp member
    rw [instruction.args?_mapCallee] at given
    exact addressable.args instruction listed args given

namespace Module

theorem get?_mem {module : Module} {id : FuncId} {definition : Definition}
    (present : module.get? id = some definition) : definition ∈ module.functions :=
  List.mem_of_getElem? present

theorem addressable_copiesOf {source : Module} {base : Nat} {order : List FuncId}
    (addressable : ∀ definition ∈ source.functions, definition.Addressable) :
    ∀ copy ∈ source.copiesOf base order, copy.Addressable := by
  intro copy member
  obtain ⟨definition, listed, rfl⟩ := List.mem_map.mp member
  obtain ⟨id, -, present⟩ := List.mem_filterMap.mp listed
  exact (addressable definition (get?_mem present)).mapCallees _

/-- The copies are the functions of `order`, in this order, with their calls renumbered. -/
theorem Closed.map_some_copiesOf {source : Module} {order : List FuncId}
    (closed : source.Closed order) (base : Nat) :
    (source.copiesOf base order).map some =
      order.map fun id => (source.get? id).map (Definition.mapCallees (renumbering base order)) := by
  have originals := congrArg (List.map (Option.map (Definition.mapCallees (renumbering base order))))
    closed.map_some_filterMap
  rw [List.map_map, List.map_map] at originals
  rw [copiesOf, List.map_map]
  exact originals

end Module

namespace Image

open Wire

/-- The number of a function in an image of the functions `order`: its place among them. -/
def place (order : List FuncId) (id : FuncId) : FuncId :=
  .ofIndex (order.idxOf id)

theorem renumbering_zero (order : List FuncId) : Module.renumbering 0 order = place order := by
  funext id
  simp [Module.renumbering, place]

section

variable {bytes : List UInt8} {entry : FuncId} {functions : List Definition}

theorem decode_eq_error {error : VerifyError}
    (written : Reads read bytes ⟨currentMagic, currentVersion, entry, functions⟩)
    (failed : Module.checkReachable ⟨functions⟩ entry = .error error) (stamp : Stamp) :
    decode stamp bytes = .error (.verify error) := by
  have whole := written.whole []
  rw [List.append_nil] at whole
  simp [decode, whole, failed]

theorem decode_eq_ok (written : Reads read bytes ⟨currentMagic, currentVersion, entry, functions⟩)
    (passed : Module.checkReachable ⟨functions⟩ entry = .ok ()) (stamp : Stamp) :
    ∃ decoded, decode stamp bytes = .ok decoded ∧ decoded.id = entry ∧
      decoded.module.functions = functions := by
  have whole := written.whole []
  rw [List.append_nil] at whole
  obtain ⟨definition, present, -⟩ := Module.get?_of_check (Module.check_of_connected passed .refl)
  have inside : entry.index < functions.length := (List.getElem?_eq_some_iff.mp present).1
  refine ⟨⟨stamp, ⟨functions⟩, entry, inside⟩, ?_, rfl, rfl⟩
  simp [decode, whole, passed, Function.of?, inside]

end

section

variable {function : Function} {order : List FuncId}

theorem length_le_capacity (found : function.module.reachable function.id = .ok order)
    (numbered : function.module.size ≤ Module.capacity) : order.length ≤ Module.capacity := by
  obtain ⟨distinct, closed, -⟩ := Module.reachable_eq_ok found
  exact Nat.le_trans (closed.length_le_size distinct) numbered

theorem encode_of_length_le (found : function.module.reachable function.id = .ok order)
    (few : order.length ≤ Module.capacity) :
    encode function = .ok (write ⟨currentMagic, currentVersion, place order function.id,
      function.module.copiesOf 0 order⟩) := by
  have room : Module.empty.size + order.length ≤ Module.capacity := by
    simpa [Module.size, Module.empty] using few
  rw [encode, Module.importFunction_eq_ok found room, ← renumbering_zero]
  rfl

theorem encode_of_reachable (found : function.module.reachable function.id = .ok order)
    (numbered : function.module.size ≤ Module.capacity) :
    encode function = .ok (write ⟨currentMagic, currentVersion, place order function.id,
      function.module.copiesOf 0 order⟩) :=
  encode_of_length_le found (length_le_capacity found numbered)

theorem encode_of_reachable_error {error : BuildError}
    (missing : function.module.reachable function.id = .error error) :
    encode function = .error (.build error) := by
  rw [encode, Module.importFunction, missing]
  rfl

theorem reads_of_length_le (found : function.module.reachable function.id = .ok order)
    (few : order.length ≤ Module.capacity)
    (addressable : ∀ definition ∈ function.module.functions, definition.Addressable) :
    Reads read
      (write ⟨currentMagic, currentVersion, place order function.id,
        function.module.copiesOf 0 order⟩)
      ⟨currentMagic, currentVersion, place order function.id, function.module.copiesOf 0 order⟩ := by
  obtain ⟨-, closed, -⟩ := Module.reachable_eq_ok found
  have countable : (function.module.copiesOf 0 order).length < UInt64.size := by
    rw [Module.length_copiesOf closed]
    simp only [Module.capacity, UInt32.size, UInt64.size] at few ⊢
    omega
  exact reads_write countable (Module.addressable_copiesOf addressable)

theorem reads_encoded (found : function.module.reachable function.id = .ok order)
    (numbered : function.module.size ≤ Module.capacity)
    (addressable : ∀ definition ∈ function.module.functions, definition.Addressable) :
    Reads read
      (write ⟨currentMagic, currentVersion, place order function.id,
        function.module.copiesOf 0 order⟩)
      ⟨currentMagic, currentVersion, place order function.id, function.module.copiesOf 0 order⟩ :=
  reads_of_length_le found (length_le_capacity found numbered) addressable

/-- The table of an image holds copies of the functions that the search finds. -/
theorem copied_of_reachable (found : function.module.reachable function.id = .ok order)
    (numbered : function.module.size ≤ Module.capacity) :
    Module.Copied function.module ⟨function.module.copiesOf 0 order⟩ (place order) order := by
  obtain ⟨-, closed, -⟩ := Module.reachable_eq_ok found
  have room : Module.empty.size + order.length ≤ Module.capacity := by
    simpa [Module.size, Module.empty] using length_le_capacity found numbered
  have copied := Module.Copied.of_import closed room
  rw [← renumbering_zero]
  exact copied

theorem place_entry (found : function.module.reachable function.id = .ok order) :
    place order function.id = ⟨0⟩ := by
  obtain ⟨callees, rfl⟩ := Module.reachable_eq_cons found
  simp [place, FuncId.ofIndex]

end

/-- Encoding fails exactly when a call leads out of the module. Otherwise decoding the bytes mirrors
the verification of the function. If that succeeds, the decoded entry has the number zero, and its
module holds the functions that the search finds, in order, unchanged but for their calls, which
name places in this order. If it fails, decoding fails with the same error about these places. -/
theorem decode_encode_mirrors_verifyAll (function : Function) (stamp : Stamp)
    (numbered : function.module.size ≤ Module.capacity)
    (addressable : ∀ definition ∈ function.module.functions, definition.Addressable) :
    ((∃ error, encode function = .error error) ↔
      ∃ error, function.module.reachable function.id = .error error) ∧
    ∀ order, function.module.reachable function.id = .ok order →
      ∃ bytes, encode function = .ok bytes ∧
        (function.verifyAll = .ok () →
          ∃ decoded, decode stamp bytes = .ok decoded ∧ decoded.id = ⟨0⟩ ∧
            decoded.module.functions.map some = order.map fun id =>
              (function.module.get? id).map (Definition.mapCallees (place order))) ∧
        ∀ error, function.verifyAll = .error error →
          decode stamp bytes = .error (.verify (error.mapIds (place order))) := by
  constructor
  · constructor
    · rintro ⟨error, failed⟩
      cases search : function.module.reachable function.id with
      | error missing => exact ⟨missing, rfl⟩
      | ok order =>
          rw [encode_of_reachable search numbered] at failed
          cases failed
    · rintro ⟨error, missing⟩
      exact ⟨_, encode_of_reachable_error missing⟩
  · intro order found
    obtain ⟨-, closed, member⟩ := Module.reachable_eq_ok found
    have written := reads_encoded found numbered addressable
    have checked : Module.checkReachable ⟨function.module.copiesOf 0 order⟩
        (place order function.id) = function.verifyAll.mapError (VerifyError.mapIds (place order)) :=
      (copied_of_reachable found numbered).checkReachable member
    refine ⟨_, encode_of_reachable found numbered, ?_, ?_⟩
    · intro passed
      rw [passed] at checked
      obtain ⟨decoded, success, entry, table⟩ := decode_eq_ok written checked stamp
      refine ⟨decoded, success, entry.trans (place_entry found), ?_⟩
      rw [table, closed.map_some_copiesOf, renumbering_zero]
    · intro error failed
      rw [failed] at checked
      exact decode_eq_error written checked stamp

/-- A function that calls one which has no body yet. -/
def waiting : Function where
  stamp := ⟨0, 0⟩
  module := ⟨[.declared "later" 0, ⟨some "main", 0, 1, some [.call 0 ⟨0⟩ [], .leave 0]⟩]⟩
  id := ⟨1⟩
  inModule := by decide

/-- The image of `poking` gives `poking` back. In the image of `waiting` the entry comes first, so
the function that has no body is the second one there. -/
theorem decode_encode_mirrors_verifyAll_poking_waiting :
    (∃ bytes decoded, encode Machine.poking = .ok bytes ∧ decode ⟨0, 1⟩ bytes = .ok decoded ∧
      decoded.id = ⟨0⟩ ∧ decoded.module.functions = Machine.poking.module.functions) ∧
    waiting.verifyAll = .error (.undefined ⟨0⟩) ∧
    ∃ bytes, encode waiting = .ok bytes ∧
      decode ⟨0, 1⟩ bytes = .error (.verify (.undefined ⟨1⟩)) := by
  have found : Machine.poking.module.reachable Machine.poking.id = .ok [⟨0⟩, ⟨1⟩] := by cbv
  have foundToo : waiting.module.reachable waiting.id = .ok [⟨1⟩, ⟨0⟩] := by cbv
  have verified : Machine.poking.verifyAll = .ok () := by cbv
  have refused : waiting.verifyAll = .error (.undefined ⟨0⟩) := by cbv
  obtain ⟨-, whole⟩ :=
    decode_encode_mirrors_verifyAll Machine.poking ⟨0, 1⟩ (by decide) (by decide)
  obtain ⟨-, partly⟩ := decode_encode_mirrors_verifyAll waiting ⟨0, 1⟩ (by decide) (by decide)
  refine ⟨?_, refused, ?_⟩
  · obtain ⟨bytes, encoded, accepts, -⟩ := whole _ found
    obtain ⟨decoded, success, entry, table⟩ := accepts verified
    have same : decoded.module.functions.map some = Machine.poking.module.functions.map some :=
      table.trans (by decide)
    exact ⟨bytes, decoded, encoded, success, entry,
      (List.map_inj_right fun _ _ => Option.some.inj).mp same⟩
  · obtain ⟨bytes, encoded, -, refuses⟩ := partly _ foundToo
    exact ⟨bytes, encoded, refuses _ refused⟩

/-! ## Where an image ends -/

section

variable {bytes : List UInt8} {image : Image}

theorem exists_reads_of_encode {function : Function} (encoded : encode function = .ok bytes)
    (addressable : ∀ definition ∈ function.module.functions, definition.Addressable) :
    ∃ image, Reads read bytes image := by
  cases imported : Module.empty.importFunction function with
  | error error => simp [encode, imported] at encoded
  | ok copied =>
      obtain ⟨order, found, room, -, -⟩ := Module.of_importFunction_eq_ok imported
      have few : order.length ≤ Module.capacity := by
        simpa [Module.size, Module.empty] using room
      rw [encode_of_length_le found few] at encoded
      cases encoded
      exact ⟨_, reads_of_length_le found few addressable⟩

theorem decode_append (written : Reads read bytes image) (rest : List UInt8) (stamp : Stamp) :
    decode stamp (bytes ++ rest) = decode stamp bytes := by
  have alone := written.whole []
  rw [List.append_nil] at alone
  simp only [decode, written.whole rest, alone]

theorem decode_of_cut (written : Reads read bytes image) {short : List UInt8}
    (before : short <+: bytes) (differs : short ≠ bytes) (stamp : Stamp) :
    decode stamp short = .error (.malformed .unexpectedEnd) := by
  simp only [decode, written.cut short before differs]

theorem ne_nil_of_reads (written : Reads read bytes image) : bytes ≠ [] := by
  rintro rfl
  cases written.whole []

end

/-- Every image has bytes. If any of them are missing at its end, be it all, decoding fails for
want of input and for no other reason; whatever follows them, decoding goes as it does without. -/
theorem image_extent_exact {function : Function} {bytes : List UInt8}
    (encoded : encode function = .ok bytes)
    (addressable : ∀ definition ∈ function.module.functions, definition.Addressable)
    (stamp : Stamp) :
    (bytes ≠ [] ∧ ∀ short, short <+: bytes → short ≠ bytes →
      decode stamp short = .error (.malformed .unexpectedEnd)) ∧
    ∀ rest, decode stamp (bytes ++ rest) = decode stamp bytes := by
  obtain ⟨image, written⟩ := exists_reads_of_encode encoded addressable
  refine ⟨⟨ne_nil_of_reads written, ?_⟩, ?_⟩
  · intro short before differs
    exact decode_of_cut written before differs stamp
  · intro rest
    exact decode_append written rest stamp

/-- A function without a name, with a double and numbers of two groups in its code. -/
def constants : Function :=
  .single ⟨0, 0⟩ [.constantDouble 0 ⟨0x3fe0000000000000⟩, .constantInt32 300 (-1000), .leave 0] 0 301

/-- The image of `constants`. -/
def constantsImage : List UInt8 :=
  [212, 138, 169, 154, 5, 2, 0, 1, 0, 0, 173, 2, 1, 3, 12, 0, 0, 0, 0, 0, 0, 0, 224, 63, 11, 172, 2,
    207, 15, 19, 0]

/-- The image of `constants` without its bytes, cut within its first number, within the double and
before its last byte, and with a byte too many. -/
theorem image_extent_exact_constants :
    encode constants = .ok constantsImage ∧
      (∀ length ∈ [0, 3, 20, 30], decode ⟨0, 1⟩ (constantsImage.take length) =
        .error (.malformed .unexpectedEnd)) ∧
      decode ⟨0, 1⟩ (constantsImage ++ [255]) = decode ⟨0, 1⟩ constantsImage := by
  have found : constants.module.reachable constants.id = .ok [⟨0⟩] := by cbv
  have encoded : encode constants = .ok constantsImage := by
    rw [encode_of_reachable found (by decide)]
    rfl
  obtain ⟨⟨-, cut⟩, followed⟩ := image_extent_exact encoded (by decide) ⟨0, 1⟩
  refine ⟨encoded, ?_, followed [255]⟩
  intro length member
  apply cut _ (List.take_prefix length constantsImage)
  revert length
  decide

end Image
end RegisterMachine
