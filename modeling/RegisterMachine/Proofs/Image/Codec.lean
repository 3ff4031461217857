import RegisterMachine.Image.Basic
import RegisterMachine.Proofs.Image.Wire

/-!
The parts of an image, from slots to whole tables, are read back as they were written.

Lengths have 64 bits on the wire, so a text or a sequence has to be countable in them, as everything
that fits in a memory is.
-/
set_option autoImplicit false

namespace RegisterMachine

/-- The lengths of the function's name, code and argument lists have 64 bits. -/
structure Definition.Addressable (definition : Definition) : Prop where
  name : ∀ text ∈ definition.name, text.utf8ByteSize < UInt64.size
  code : definition.code.length < UInt64.size
  args : ∀ instruction ∈ definition.code, ∀ args ∈ instruction.args?, args.length < UInt64.size

instance (definition : Definition) : Decidable definition.Addressable :=
  decidable_of_iff
    ((∀ text ∈ definition.name, text.utf8ByteSize < UInt64.size) ∧
      definition.code.length < UInt64.size ∧
      ∀ instruction ∈ definition.code, ∀ args ∈ instruction.args?, args.length < UInt64.size)
    ⟨fun ⟨name, code, args⟩ => ⟨name, code, args⟩,
      fun addressable => ⟨addressable.name, addressable.code, addressable.args⟩⟩

namespace Image

open Wire

theorem reads_writeSlot (slot : Slot) : Reads readSlot (writeSlot slot) slot := by
  have number := (reads_number16 slot.toNat_lt).map UInt16.ofNat
  rwa [UInt16.ofNat_toNat] at number

theorem reads_writeFuncId (id : FuncId) : Reads readFuncId (writeFuncId id) id := by
  have number := (reads_number32 id.number.toNat_lt).map FuncId.ofIndex
  rwa [FuncId.ofIndex, UInt32.ofNat_toNat] at number

theorem reads_writeDouble (value : Double) : Reads readDouble (writeDouble value) value := by
  have fits : value.bits.toNat < Nat.pow 256 8 := value.bits.toNat_lt
  have bytes := (reads_writeBytes fits).map fun n => Double.mk (UInt64.ofNat n)
  rwa [UInt64.ofNat_toNat] at bytes

theorem reads_writeVariant {variant : Nat} (small : variant < UInt32.size) :
    Reads readVariant (writeVariant variant) variant :=
  reads_number32 small

theorem reads_writeTag (tag : Tag) : Reads readTag (writeTag tag) tag := by
  cases tag with
  | nativeCallback => exact (reads_writeVariant (by decide)).bind_pure rfl
  | code => exact (reads_writeVariant (by decide)).bind_pure rfl
  | user number =>
      have read := (reads_number16 number.toNat_lt).map fun n => Tag.user (UInt16.ofNat n)
      rw [UInt16.ofNat_toNat] at read
      exact (reads_writeVariant (by decide)).bind read

theorem reads_writeValue (value : Value) : Reads readValue (writeValue value) value := by
  cases value with
  | null => exact (reads_writeVariant (by decide)).bind_pure rfl
  | undefined => exact (reads_writeVariant (by decide)).bind_pure rfl
  | boolean value => exact (reads_writeVariant (by decide)).bind ((reads_writeBool value).map _)
  | int32 value => exact (reads_writeVariant (by decide)).bind ((reads_writeInt32 value).map _)
  | double value => exact (reads_writeVariant (by decide)).bind ((reads_writeDouble value).map _)
  | tagged tag word =>
      have number := (reads_number64 word.toNat_lt).map fun n => Value.tagged tag (UInt64.ofNat n)
      rw [UInt64.ofNat_toNat] at number
      rw [writeValue, List.append_assoc]
      exact (reads_writeVariant (by decide)).bind ((reads_writeTag tag).bind number)

theorem reads_writeSlots {slots : List Slot} (countable : slots.length < UInt64.size) :
    Reads (readList readSlot) (writeList writeSlot slots) slots :=
  reads_writeList countable fun slot _ => reads_writeSlot slot

theorem reads_writeOperands {instruction : Instruction}
    (countable : ∀ args ∈ instruction.args?, args.length < UInt64.size) :
    Reads (readOperands instruction.opcode) (writeOperands instruction) instruction := by
  cases instruction with
  | allocate access dest => exact (reads_writeSlot dest).map _
  | store access x y => exact (reads_writeSlot x).bind ((reads_writeSlot y).map _)
  | load access dest x => exact (reads_writeSlot dest).bind ((reads_writeSlot x).map _)
  | equal dest x y =>
      rw [writeOperands, List.append_assoc]
      exact (reads_writeSlot dest).bind ((reads_writeSlot x).bind ((reads_writeSlot y).map _))
  | constant dest value => exact (reads_writeSlot dest).bind ((reads_writeValue value).map _)
  | constantInt32 dest value => exact (reads_writeSlot dest).bind ((reads_writeInt32 value).map _)
  | constantDouble dest value =>
      exact (reads_writeSlot dest).bind ((reads_writeDouble value).map _)
  | extract kind dest x => exact (reads_writeSlot dest).bind ((reads_writeSlot x).map _)
  | jump target => exact (reads_writeSlot target).map _
  | branch x target => exact (reads_writeSlot x).bind ((reads_writeSlot target).map _)
  | add dest x y =>
      rw [writeOperands, List.append_assoc]
      exact (reads_writeSlot dest).bind ((reads_writeSlot x).bind ((reads_writeSlot y).map _))
  | call dest callee args =>
      have slots := reads_writeSlots (countable args rfl)
      rw [writeOperands, List.append_assoc]
      exact (reads_writeSlot dest).bind ((reads_writeFuncId callee).bind (slots.map _))
  | leave x => exact (reads_writeSlot x).map _
  | execute dest callee args =>
      have slots := reads_writeSlots (countable args rfl)
      rw [writeOperands, List.append_assoc]
      exact (reads_writeSlot dest).bind ((reads_writeSlot callee).bind (slots.map _))

theorem reads_writeInstruction {instruction : Instruction}
    (countable : ∀ args ∈ instruction.args?, args.length < UInt64.size) :
    Reads readInstruction (writeInstruction instruction) instruction := by
  have listed := instruction.opcode.mem_all
  have place := List.idxOf_lt_length_of_mem listed
  have few : Opcode.all.length < UInt32.size := by decide
  refine (reads_writeVariant (by omega)).bind ?_
  rw [List.getElem?_eq_getElem place, List.getElem_idxOf]
  exact reads_writeOperands countable

theorem reads_writeDefinition {definition : Definition} (addressable : definition.Addressable) :
    Reads readDefinition (writeDefinition definition) definition := by
  have name := reads_writeOption fun text present =>
    reads_writeString (addressable.name text present)
  have body : Reads (readOption (readList readInstruction))
      (writeOption (writeList writeInstruction) definition.body) definition.body := by
    refine reads_writeOption fun code present => ?_
    have same : definition.code = code := by simp [Definition.code, Option.mem_def.mp present]
    refine reads_writeList (same ▸ addressable.code) fun instruction member => ?_
    exact reads_writeInstruction (addressable.args instruction (same ▸ member))
  rw [writeDefinition, List.append_assoc, List.append_assoc]
  exact name.bind ((reads_writeSlot _).bind ((reads_writeSlot _).bind (body.map _)))

/-- An image is read back from its bytes. -/
theorem reads_write {image : Image} (countable : image.functions.length < UInt64.size)
    (addressable : ∀ definition ∈ image.functions, definition.Addressable) :
    Reads read (write image) image := by
  have magic := reads_number32 image.magic.toNat_lt
  have functions := reads_writeList countable fun definition member =>
    reads_writeDefinition (addressable definition member)
  rw [write, List.append_assoc, List.append_assoc]
  refine magic.bind ((reads_byte _).bind ((reads_writeFuncId _).bind (functions.bind_pure ?_)))
  rw [UInt32.ofNat_toNat]

end Image
end RegisterMachine
