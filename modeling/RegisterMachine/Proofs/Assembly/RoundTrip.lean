import RegisterMachine.Assembly.Printer
import RegisterMachine.Proofs.Assembly.Tokens
import RegisterMachine.Proofs.Double.ReadBack

/-!
Code reads back as it was written.

Every operand is written as a text that holds no separator and is read as what it was; the first
one begins with a digit, so the sigil before it is recognised and nothing longer is. What a scope
has no text for is left out: calls and callbacks whose name stands for something else or holds a
separator, and constants that are no literals.
-/
set_option autoImplicit false

namespace RegisterMachine

/-! ## Opcodes -/

theorem prefix_append_cons_iff {front base rest : List Char} {c : Char} (absent : c ∉ front) :
    front <+: base ++ c :: rest ↔ front <+: base := by
  refine ⟨fun start => ?_, fun start => start.trans (List.prefix_append ..)⟩
  rcases List.prefix_or_prefix_of_prefix start (List.prefix_append base (c :: rest)) with
    inside | ⟨more, rfl⟩
  · exact inside
  · -- What goes beyond the base begins with `c`, which the front does not hold.
    cases more with
    | nil => simp
    | cons first more =>
        rw [List.prefix_append_right_inj, List.cons_prefix_cons] at start
        rw [start.1] at absent
        simp at absent

theorem not_isDigit_of_mem_sigil {opcode : Opcode} {c : Char} (member : c ∈ opcode.sigil.toList) :
    c.isDigit = false := by
  have letters : ∀ opcode ∈ Opcode.all, opcode.sigil.toList.all (!·.isDigit) = true := by decide
  simpa using List.all_eq_true.mp (letters opcode opcode.mem_all) c member

/-- Of the sigils that another one begins with, the longest is tried first. -/
theorem find?_sigil (opcode : Opcode) :
    Opcode.longestFirst.find? (fun other => other.sigil.toList.isPrefixOf opcode.sigil.toList) =
      some opcode := by
  have longest : ∀ opcode ∈ Opcode.all, Opcode.longestFirst.find?
      (fun other => other.sigil.toList.isPrefixOf opcode.sigil.toList) = some opcode := by decide
  exact longest opcode opcode.mem_all

theorem recognise_sigil (opcode : Opcode) {first : Char} (digit : first.isDigit = true)
    (rest : List Char) :
    Opcode.recognise (opcode.sigil.toList ++ first :: rest) = some (opcode, first :: rest) := by
  -- No sigil holds a digit, so the operands have no part in which sigils a token begins with.
  have same : (fun other : Opcode =>
      other.sigil.toList.isPrefixOf (opcode.sigil.toList ++ first :: rest)) =
        fun other => other.sigil.toList.isPrefixOf opcode.sigil.toList := by
    funext other
    have absent : first ∉ other.sigil.toList := by
      intro member
      rw [not_isDigit_of_mem_sigil member] at digit
      cases digit
    rw [Bool.eq_iff_iff, List.isPrefixOf_iff_prefix, List.isPrefixOf_iff_prefix,
      prefix_append_cons_iff absent]
  rw [Opcode.recognise, same, find?_sigil, Option.map_some, List.drop_left]

/-! ## What can be written -/

/-- A text that separators leave whole. -/
structure Unbroken (text : List Char) : Prop where
  comma : ',' ∉ text
  bar : '|' ∉ text

theorem Unbroken.cons {c : Char} {text : List Char} (unbroken : Unbroken text) (comma : ',' ≠ c)
    (bar : '|' ≠ c) : Unbroken (c :: text) :=
  ⟨List.not_mem_cons_of_ne_of_not_mem comma unbroken.comma,
    List.not_mem_cons_of_ne_of_not_mem bar unbroken.bar⟩

namespace Scope

open Assembly

variable {scope : Scope}

/-- The values that have a literal: booleans, int32s, doubles that are numbers, and callbacks whose
name stands for them. -/
inductive HasLiteral (scope : Scope) : Value → Prop where
  | boolean (value : Bool) : HasLiteral scope (.boolean value)
  | int32 (value : Int32) : HasLiteral scope (.int32 value)
  | double {value : Double} (number : value.isNaN = false) : HasLiteral scope (.double value)
  | callback {registry : Registry} {id : UInt32} {name : String}
      (host : scope.callbacks = some registry) (named : registry.name? id = some name)
      (unbroken : Unbroken name.toList) (found : registry.lookup name = some (.ofCallback id)) :
      HasLiteral scope (.ofCallback id)

/-- A call of `callee` with `count` arguments has a text: the function's name stands for it, and it
takes that many. -/
inductive HasTarget (scope : Scope) (callee : FuncId) (count : Nat) : Prop where
  | intro {module : Module} {definition : Definition} {name : String}
      (functions : scope.functions = some module) (present : module.get? callee = some definition)
      (named : definition.name = some name) (unbroken : Unbroken name.toList)
      (found : module.lookup name = some callee) (arity : count = definition.argCount.toNat)

/-- The instructions that have a text. -/
structure Writable (scope : Scope) (instruction : Instruction) : Prop where
  literal : ∀ value, instruction.value? = some value → scope.HasLiteral value
  target : ∀ dest callee args, instruction = .call dest callee args →
    scope.HasTarget callee args.length

/-! ## Slots -/

theorem readSlot_slotText (slot : Slot) : readSlot (slotText slot) = .ok slot := by
  simp only [readSlot, slotText, Text.readUInt16?_toDigits]

theorem mapM_readSlot (slots : List Slot) : (slots.map slotText).mapM readSlot = .ok slots := by
  induction slots with
  | nil => rfl
  | cons slot rest ih =>
      rw [List.map_cons, List.mapM_cons, readSlot_slotText, ih]
      rfl

/-! ## Literals -/

theorem literalText_of_callback?_eq_none {value : Value} (other : value.callback? = none) :
    scope.literalText value = value.text.toList := by
  cases callbacks : scope.callbacks <;> simp [literalText, callbacks, other]

theorem literalText_int32 (value : Int32) :
    scope.literalText (.int32 value) = 'i' :: (toString value.toInt).toList := by
  have text : (Value.int32 value).text = "i" ++ toString value.toInt := rfl
  rw [literalText_of_callback?_eq_none rfl, text, String.toList_append]
  rfl

theorem literalText_double (value : Double) :
    scope.literalText (.double value) = 'd' :: value.text := by
  rw [literalText_of_callback?_eq_none rfl, Value.text, String.toList_ofList]

theorem callback?_ofCallback (id : UInt32) : (Value.ofCallback id).callback? = some id := by
  have small : id.toUInt64.toNat < UInt32.size := by
    rw [UInt32.toNat_toUInt64]
    exact id.toNat_lt
  simp only [Value.ofCallback, Value.callback?, Value.word?, if_true, if_pos small,
    UInt32.toUInt32_toUInt64]

theorem literalText_ofCallback {registry : Registry} {id : UInt32} {name : String}
    (host : scope.callbacks = some registry) (named : registry.name? id = some name) :
    scope.literalText (.ofCallback id) = 'e' :: name.toList := by
  simp [literalText, host, callback?_ofCallback, named]

theorem literal_literalText {value : Value} (written : scope.HasLiteral value) :
    scope.literal (scope.literalText value) = .ok value := by
  cases written with
  | boolean value =>
      rw [literalText_of_callback?_eq_none rfl]
      cases value <;> rfl
  | int32 value =>
      rw [literalText_int32]
      simp only [literal, readLiteral, Text.readInt32?_toString]
  | double number =>
      rw [literalText_double]
      simp only [literal, readLiteral, Double.read?_text number]
  | callback host named unbroken found =>
      rw [literalText_ofCallback host named]
      simp only [literal, readLiteral, host, Option.bind_some, String.ofList_toList, found]

/-! ## Operands -/

theorem functionName_of_named {module : Module} {callee : FuncId} {definition : Definition}
    {name : String} (functions : scope.functions = some module)
    (present : module.get? callee = some definition) (named : definition.name = some name) :
    scope.functionName callee = name.toList := by
  simp only [functionName, functions, Option.bind_some, present, named]

theorem function?_of_target {module : Module} {callee : FuncId} {definition : Definition}
    {name : String} (functions : scope.functions = some module)
    (present : module.get? callee = some definition) (found : module.lookup name = some callee) :
    scope.function? name = some (callee, definition.argCount) := by
  simp only [function?, functions, found, present, Option.bind_eq_bind, Option.bind_some]
  rfl

theorem unary_slotTexts (build : Slot → Instruction) (a : Slot) :
    unary build [slotText a] = .ok (build a) := by
  rw [unary, readSlot_slotText]
  rfl

theorem binary_slotTexts (build : Slot → Slot → Instruction) (a b : Slot) :
    binary build [slotText a, slotText b] = .ok (build a b) := by
  rw [binary, readSlot_slotText, readSlot_slotText]
  rfl

theorem ternary_slotTexts (build : Slot → Slot → Slot → Instruction) (a b c : Slot) :
    ternary build [slotText a, slotText b, slotText c] = .ok (build a b c) := by
  rw [ternary, readSlot_slotText, readSlot_slotText, readSlot_slotText]
  rfl

theorem execute_slotTexts (dest callee : Slot) (args : List Slot) :
    execute (slotText dest :: slotText callee :: args.map slotText) =
      .ok (.execute dest callee args) := by
  rw [execute, readSlot_slotText, readSlot_slotText, mapM_readSlot]
  rfl

theorem call_slotTexts {callee : FuncId} {args : List Slot} (dest : Slot)
    (target : scope.HasTarget callee args.length) :
    scope.call (slotText dest :: scope.functionName callee :: args.map slotText) =
      .ok (.call dest callee args) := by
  obtain ⟨functions, present, named, unbroken, found, arity⟩ := target
  rw [call, readSlot_slotText, functionName_of_named functions present named]
  simp only [bind, Except.bind, String.ofList_toList, function?_of_target functions present found,
    mapM_readSlot, if_pos arity]

/-- Every instruction is made again from its opcode and its operands. -/
theorem assembleOperands_operandTexts {instruction : Instruction}
    (writable : scope.Writable instruction) :
    scope.assembleOperands instruction.opcode (scope.operandTexts instruction) =
      .ok instruction := by
  cases instruction with
  | allocate access dest => exact unary_slotTexts ..
  | store access x y => exact binary_slotTexts ..
  | load access dest x => exact binary_slotTexts ..
  | equal dest x y => exact ternary_slotTexts ..
  | constant dest value =>
      change scope.constant .any [slotText dest, scope.literalText value] = _
      rw [constant, readSlot_slotText, literal_literalText (writable.literal _ rfl)]
      rfl
  | constantInt32 dest value =>
      change scope.constant (.only .int32) [slotText dest, scope.literalText (.int32 value)] = _
      rw [constant, readSlot_slotText, literal_literalText (writable.literal _ rfl)]
      rfl
  | constantDouble dest value =>
      change scope.constant (.only .double) [slotText dest, scope.literalText (.double value)] = _
      rw [constant, readSlot_slotText, literal_literalText (writable.literal _ rfl)]
      rfl
  | extract kind dest x => exact binary_slotTexts ..
  | jump target => exact unary_slotTexts ..
  | branch x target => exact binary_slotTexts ..
  | add dest x y => exact ternary_slotTexts ..
  | call dest callee args => exact call_slotTexts dest (writable.target _ _ _ rfl)
  | leave x => exact unary_slotTexts ..
  | execute dest callee args => exact execute_slotTexts ..

/-! ## Separators -/

theorem unbroken_slotText (slot : Slot) : Unbroken (slotText slot) :=
  ⟨Text.not_mem_toDigits rfl _, Text.not_mem_toDigits rfl _⟩

theorem unbroken_toString_int (n : Int) : Unbroken (toString n).toList := by
  rw [Text.toList_toString_int]
  split
  · exact ⟨Text.not_mem_toDigits rfl _, Text.not_mem_toDigits rfl _⟩
  · constructor
    · simp [Text.not_mem_toDigits]
    · simp [Text.not_mem_toDigits]

theorem unbroken_doubleText (value : Double) : Unbroken value.text :=
  ⟨fun member => absurd (Double.mem_text member) (by decide),
    fun member => absurd (Double.mem_text member) (by decide)⟩

theorem unbroken_literalText {value : Value} (written : scope.HasLiteral value) :
    Unbroken (scope.literalText value) := by
  cases written with
  | boolean value =>
      rw [literalText_of_callback?_eq_none rfl]
      cases value <;> exact ⟨by decide, by decide⟩
  | int32 value =>
      rw [literalText_int32]
      exact (unbroken_toString_int _).cons (by decide) (by decide)
  | double number =>
      rw [literalText_double]
      exact (unbroken_doubleText _).cons (by decide) (by decide)
  | callback host named unbroken found =>
      rw [literalText_ofCallback host named]
      exact unbroken.cons (by decide) (by decide)

theorem unbroken_functionName {callee : FuncId} {count : Nat}
    (target : scope.HasTarget callee count) : Unbroken (scope.functionName callee) := by
  obtain ⟨functions, present, named, unbroken, found, arity⟩ := target
  rw [functionName_of_named functions present named]
  exact unbroken

theorem unbroken_operandTexts {instruction : Instruction} (writable : scope.Writable instruction) :
    ∀ text ∈ scope.operandTexts instruction, Unbroken text := by
  have literal : ∀ value, instruction.value? = some value → Unbroken (scope.literalText value) :=
    fun value carried => unbroken_literalText (writable.literal value carried)
  cases instruction with
  | constant dest value => simp [operandTexts, unbroken_slotText, literal value rfl]
  | constantInt32 dest value => simp [operandTexts, unbroken_slotText, literal (.int32 value) rfl]
  | constantDouble dest value => simp [operandTexts, unbroken_slotText, literal (.double value) rfl]
  | call dest callee args =>
      simp [operandTexts, unbroken_slotText, unbroken_functionName (writable.target _ _ _ rfl)]
  | allocate | store | load | equal | extract | jump | branch | add | leave | execute =>
      simp [operandTexts, unbroken_slotText]

/-! ## Instructions -/

theorem bar_not_mem_sigil (opcode : Opcode) : '|' ∉ opcode.sigil.toList := by
  have letters : ∀ opcode ∈ Opcode.all, '|' ∉ opcode.sigil.toList := by decide
  exact letters opcode opcode.mem_all

theorem mem_intercalate {separator c : Char} {texts : List (List Char)}
    (member : c ∈ [separator].intercalate texts) : c = separator ∨ ∃ text ∈ texts, c ∈ text := by
  induction texts with
  | nil => simp at member
  | cons text rest ih =>
      cases rest with
      | nil => exact .inr ⟨text, by simp, by simpa using member⟩
      | cons next rest =>
          rw [List.intercalate_cons_cons, List.mem_append, List.mem_append,
            List.mem_singleton] at member
          rcases member with (inside | same) | behind
          · exact .inr ⟨text, by simp, inside⟩
          · exact .inl same
          · rcases ih behind with same | ⟨other, listed, inside⟩
            · exact .inl same
            · exact .inr ⟨other, List.mem_cons_of_mem _ listed, inside⟩

theorem operandTexts_eq_cons (scope : Scope) (instruction : Instruction) :
    ∃ slot others, scope.operandTexts instruction = slotText slot :: others := by
  cases instruction <;> exact ⟨_, _, rfl⟩

theorem intercalate_operandTexts_eq_cons (scope : Scope) (instruction : Instruction) :
    ∃ first rest, [','].intercalate (scope.operandTexts instruction) = first :: rest ∧
      first.isDigit = true := by
  obtain ⟨slot, others, operands⟩ := scope.operandTexts_eq_cons instruction
  obtain ⟨first, rest, digits, digit⟩ := Text.toDigits_eq_cons slot.toNat
  have text : slotText slot = first :: rest := digits
  rw [operands, text]
  cases others with
  | nil => exact ⟨first, rest, by simp, digit⟩
  | cons next others => exact ⟨first, _, List.intercalate_cons_cons, digit⟩

theorem assembleToken_printInstruction {instruction : Instruction}
    (writable : scope.Writable instruction) :
    scope.assembleToken (scope.printInstruction instruction) = .ok instruction := by
  obtain ⟨first, rest, text, digit⟩ := scope.intercalate_operandTexts_eq_cons instruction
  have split : operands (first :: rest) = scope.operandTexts instruction := by
    obtain ⟨slot, others, some⟩ := scope.operandTexts_eq_cons instruction
    have nonempty : scope.operandTexts instruction ≠ [] := by simp [some]
    change (first :: rest).splitOn ',' = _
    rw [← text, List.splitOn_intercalate _ _ nonempty]
    exact fun operand member => (unbroken_operandTexts writable operand member).comma
  rw [assembleToken, printInstruction, text, if_neg (by simp), recognise_sigil _ digit]
  simp only [split, assembleOperands_operandTexts writable]

theorem bar_not_mem_printInstruction {instruction : Instruction}
    (writable : scope.Writable instruction) : '|' ∉ scope.printInstruction instruction := by
  intro member
  rcases List.mem_append.mp member with sigil | operands
  · exact bar_not_mem_sigil _ sigil
  · rcases mem_intercalate operands with comma | ⟨text, operand, inside⟩
    · exact absurd comma (by decide)
    · exact (unbroken_operandTexts writable text operand).bar inside

theorem printInstruction_ne_nil (scope : Scope) (instruction : Instruction) :
    scope.printInstruction instruction ≠ [] := by
  obtain ⟨first, rest, text, -⟩ := scope.intercalate_operandTexts_eq_cons instruction
  simp [printInstruction, text]

/-- Assembling the text of code gives the code back. -/
theorem assemble_print (scope : Scope) (code : List Instruction)
    (writable : ∀ instruction ∈ code, scope.Writable instruction) :
    scope.assemble (scope.print code) = .ok code := by
  by_cases empty : code = []
  · rw [empty]
    rfl
  have tokens : (['|'].intercalate (code.map scope.printInstruction)).splitOn '|' =
      code.map scope.printInstruction := by
    refine List.splitOn_intercalate _ ?_ (by simpa using empty)
    simp only [List.forall_mem_map]
    exact fun instruction member => bar_not_mem_printInstruction (writable instruction member)
  have text : scope.print code ≠ "" := by
    intro nothing
    rw [print, String.ofList_eq_empty_iff] at nothing
    rw [nothing, List.splitOn_nil] at tokens
    obtain ⟨instruction, -, silent⟩ := List.mem_map.mp (tokens ▸ List.mem_singleton_self [])
    exact scope.printInstruction_ne_nil instruction silent
  rw [assemble_of_ne_empty text, print, String.toList_ofList, tokens, assembleTokens_eq_ok_iff,
    List.forall₂_map_left_iff, List.forall₂_same]
  exact fun instruction member => assembleToken_printInstruction (writable instruction member)

/-- A scope with two functions of the same name and one callback. -/
def shadowed : Scope :=
  ⟨some ⟨[.declared "f" 1, .declared "f" 2]⟩, some ⟨[("log", fun _ => ⟨.null, []⟩)], 1⟩⟩

/-- Code that calls the second function and the callback, with the literals of every kind. -/
def shadowedCode : List Instruction :=
  [.constant 0 (.ofCallback 0), .constant 1 (.boolean true), .constantInt32 2 (-2147483648),
    .constantDouble 3 ⟨0x8000000000000000⟩, .constantDouble 4 ⟨0x3FB999999999999A⟩,
    .call 5 ⟨1⟩ [1, 65535], .execute 6 0 [5, 3], .execute 7 0 [], .leave 6]

theorem assemble_print_shadowed :
    (∀ instruction ∈ shadowedCode, shadowed.Writable instruction) ∧
      shadowed.print shadowedCode =
        "C0,elog|C1,T|Ci2,i-2147483648|Cd3,d-0|Cd4,d0.1|()5,f,1,65535|X6,0,5,3|X7,0|R6" ∧
      shadowed.assemble (shadowed.print shadowedCode) = .ok shadowedCode := by
  have writable : ∀ instruction ∈ shadowedCode, shadowed.Writable instruction := by
    intro instruction member
    constructor
    · intro value carried
      simp only [shadowedCode, List.mem_cons, List.not_mem_nil, or_false] at member
      rcases member with rfl | rfl | rfl | rfl | rfl | rfl | rfl | rfl | rfl
      · cases carried
        exact .callback rfl rfl ⟨by decide, by decide⟩ rfl
      · cases carried
        exact .boolean true
      · cases carried
        exact .int32 _
      · cases carried
        exact .double rfl
      · cases carried
        exact .double (by decide)
      all_goals cases carried
    · rintro dest callee args rfl
      simp only [shadowedCode, List.mem_cons, List.not_mem_nil, or_false, reduceCtorEq,
        false_or] at member
      cases member
      exact ⟨rfl, rfl, rfl, ⟨by decide, by decide⟩, rfl, rfl⟩
  exact ⟨writable, by decide +kernel, assemble_print shadowed shadowedCode writable⟩

end Scope
end RegisterMachine
