import RegisterMachine.Listing
import RegisterMachine.Proofs.Double.ReadBack

/-!
An instruction can be told from its text in a listing.

The mnemonic fills a column of its own, so it stands out from the operands. Apart from constants,
operands are numbers with fixed signs between them: the opcode and these numbers make up the
instruction. What stands behind the destination of a constant is the text of its value, and values
have different texts as long as doubles are numbers.
-/
set_option autoImplicit false

namespace RegisterMachine

/-! ## Texts of values -/

/-- A text ends where a character stands that it does not hold. -/
theorem append_cons_inj {front front' back back' : List Char} {c : Char} (absent : c ∉ front)
    (absent' : c ∉ front') (same : front ++ c :: back = front' ++ c :: back') :
    front = front' ∧ back = back' := by
  have split := congrArg (List.splitOnP (· == c)) same
  have inside : ∀ front : List Char, c ∉ front → ∀ d ∈ front, (d == c) = false := by
    intro front absent d member
    simpa using fun same : d = c => absent (same ▸ member)
  rw [List.splitOnP_append_cons_of_forall_mem (inside front absent) _ (by simp),
    List.splitOnP_append_cons_of_forall_mem (inside front' absent') _ (by simp)] at split
  obtain rfl := (List.cons.inj split).1
  exact ⟨rfl, (List.cons.inj (List.append_cancel_left same)).2⟩

namespace Tag

theorem toList_text_user (number : UInt16) :
    (user number).text.toList = ['u', 's', 'e', 'r'] ++ Nat.toDigits 10 number.toNat := by
  have text : (user number).text = "user" ++ number.toNat.repr := rfl
  rw [text, String.toList_append, Nat.toList_repr]
  rfl

theorem text_inj {a b : Tag} (same : a.text.toList = b.text.toList) : a = b := by
  cases a with
  | nativeCallback =>
      cases b with
      | nativeCallback => rfl
      | code => simp [text] at same
      | user number =>
          rw [toList_text_user] at same
          simp [text] at same
  | code =>
      cases b with
      | nativeCallback => simp [text] at same
      | code => rfl
      | user number =>
          rw [toList_text_user] at same
          simp [text] at same
  | user number =>
      rw [toList_text_user] at same
      cases b with
      | nativeCallback | code => simp [text] at same
      | user other =>
          rw [toList_text_user] at same
          have number := Text.toDigits_inj (by decide) (by decide) (List.append_cancel_left same)
          rw [UInt16.toNat_inj.mp number]

theorem colon_not_mem_text (tag : Tag) : ':' ∉ tag.text.toList := by
  cases tag with
  | nativeCallback | code => decide
  | user number =>
      rw [toList_text_user]
      simp [Text.not_mem_toDigits]

end Tag

namespace Value

theorem toList_text_int32 (value : Int32) :
    (int32 value).text.toList = 'i' :: (toString value.toInt).toList := by
  have text : (int32 value).text = "i" ++ toString value.toInt := rfl
  rw [text, String.toList_append]
  rfl

theorem toList_text_double (value : Double) : (double value).text.toList = 'd' :: value.text := by
  rw [text, String.toList_ofList]

theorem toList_text_tagged (tag : Tag) (word : UInt64) :
    (tagged tag word).text.toList =
      '<' :: (tag.text.toList ++ ':' :: '0' :: 'x' :: (Nat.toDigits 16 word.toNat ++ ['>'])) := by
  have text : (tagged tag word).text = "<" ++ tag.text ++ ":0x" ++ Text.hex word.toNat ++ ">" := rfl
  simp [text, Text.hex]

/-- The value with this text, unless it is tagged. -/
def ofText? : List Char → Option Value
  | 'n' :: _ => some .null
  | 'u' :: _ => some .undefined
  | 'T' :: _ => some (.boolean true)
  | 'F' :: _ => some (.boolean false)
  | 'i' :: number => (Text.readInt32? number).map .int32
  | 'd' :: number => (Double.read? number).map .double
  | _ => none

theorem ofText?_tagged (tag : Tag) (word : UInt64) :
    ofText? (tagged tag word).text.toList = none := by
  rw [toList_text_tagged]
  rfl

theorem ofText?_text {value : Value}
    (number : ∀ double, value = .double double → double.isNaN = false) :
    (∃ tag word, value = .tagged tag word) ∨ ofText? value.text.toList = some value := by
  cases value with
  | null | undefined => exact .inr rfl
  | boolean value =>
      cases value
      · exact .inr rfl
      · exact .inr rfl
  | int32 value =>
      right
      rw [toList_text_int32, ofText?, Text.readInt32?_toString]
      rfl
  | double value =>
      right
      rw [toList_text_double, ofText?, Double.read?_text (number value rfl)]
      rfl
  | tagged tag word => exact .inl ⟨tag, word, rfl⟩

theorem text_inj_tagged {tag tag' : Tag} {word word' : UInt64}
    (same : (tagged tag word).text.toList = (tagged tag' word').text.toList) :
    tagged tag word = tagged tag' word' := by
  rw [toList_text_tagged, toList_text_tagged] at same
  obtain ⟨tags, words⟩ := append_cons_inj tag.colon_not_mem_text tag'.colon_not_mem_text
    (List.cons.inj same).2
  have digits : Nat.toDigits 16 word.toNat = Nat.toDigits 16 word'.toNat := by simpa using words
  rw [Tag.text_inj tags, UInt64.toNat_inj.mp (Text.toDigits_inj (by decide) (by decide) digits)]

/-- Values have different texts, as long as doubles are numbers. -/
theorem text_inj {a b : Value} (number : ∀ value, a = .double value → value.isNaN = false)
    (number' : ∀ value, b = .double value → value.isNaN = false)
    (same : a.text.toList = b.text.toList) : a = b := by
  rcases ofText?_text number with ⟨tag, word, rfl⟩ | read
  · rcases ofText?_text number' with ⟨tag', word', rfl⟩ | read'
    · exact text_inj_tagged same
    · rw [← same, ofText?_tagged] at read'
      cases read'
  · rw [same] at read
    rcases ofText?_text number' with ⟨tag', word', rfl⟩ | read'
    · rw [ofText?_tagged] at read
      cases read
    · rw [read'] at read
      exact (Option.some.inj read).symm

end Value

namespace Listing

open Text

/-! ## Operands as numbers -/

/-- The instruction of this opcode with these numbers in its operands, unless it carries a
constant. -/
def ofNumbers : Opcode → List Nat → Option Instruction
  | .allocate access, [dest] => some (.allocate access (.ofNat dest))
  | .store access, [x, y] => some (.store access (.ofNat x) (.ofNat y))
  | .load access, [dest, x] => some (.load access (.ofNat dest) (.ofNat x))
  | .equal, [dest, x, y] => some (.equal (.ofNat dest) (.ofNat x) (.ofNat y))
  | .extract kind, [dest, x] => some (.extract kind (.ofNat dest) (.ofNat x))
  | .jump, [target] => some (.jump (.ofNat target))
  | .branch, [x, target] => some (.branch (.ofNat x) (.ofNat target))
  | .add, [dest, x, y] => some (.add (.ofNat dest) (.ofNat x) (.ofNat y))
  | .call, dest :: callee :: args =>
    some (.call (.ofNat dest) (.ofIndex callee) (args.map .ofNat))
  | .leave, [x] => some (.leave (.ofNat x))
  | .execute, dest :: callee :: args =>
    some (.execute (.ofNat dest) (.ofNat callee) (args.map .ofNat))
  | _, _ => none

theorem toString_text (text : String) : toString text = text :=
  rfl

@[simp]
theorem toList_slot (number : Slot) :
    (slot number).toList = 'r' :: Nat.toDigits 10 number.toNat := by
  have text : slot number = "r" ++ number.toNat.repr := rfl
  rw [text, String.toList_append, Nat.toList_repr]
  rfl

theorem toList_index (number : Nat) :
    (index number).toList = List.replicate (4 - (Nat.toDigits 10 number).length) '0' ++
      Nat.toDigits 10 number := by
  have digits : (toString number).toList = Nat.toDigits 10 number := Nat.toList_repr
  rw [index, padLeft, String.toList_ofList, digits, List.leftpad]

theorem isDigit_of_mem_index {number : Nat} {c : Char} (member : c ∈ (index number).toList) :
    c.isDigit = true := by
  rw [toList_index] at member
  rcases List.mem_append.mp member with zero | digit
  · rw [List.eq_of_mem_replicate zero]
    rfl
  · exact isDigit_of_mem_toDigits digit

theorem index_ne_nil (number : Nat) : (index number).toList ≠ [] := by
  simp [toList_index]

@[simp]
theorem numbers_index (number : Nat) : numbers (index number).toList = [number] := by
  have run := numbers_digits_append (fun _ => isDigit_of_mem_index) (index_ne_nil number) ends_nil
  rw [List.append_nil, numbers_nil] at run
  rw [run, toList_index, Nat.ofDigitChars_append, Nat.ofDigitChars_replicate_zero, Nat.mul_zero,
    Nat.ofDigitChars_ten_toDigits]

theorem numbers_args {sigil : Char} (other : sigil.isDigit = false) (args : List Slot) :
    numbers ([',', ' '].intercalate (args.map fun arg => sigil :: Nat.toDigits 10 arg.toNat) ++
      [')']) = args.map UInt16.toNat := by
  induction args with
  | nil => simp
  | cons arg args ih =>
      cases args with
      | nil => simp [other]
      | cons next args =>
          rw [List.map_cons] at ih
          rw [List.map_cons, List.map_cons, List.intercalate_cons_cons, List.append_assoc,
            List.append_assoc, List.cons_append, numbers_cons other,
            numbers_toDigits_append _ (by simp), List.cons_append, List.cons_append,
            numbers_cons rfl, numbers_cons rfl, List.nil_append, ih]
          rfl

/-- The opcode and the numbers in its operands make up an instruction without a constant. -/
theorem ofNumbers_operands {instruction : Instruction} (plain : instruction.value? = none) :
    ofNumbers instruction.opcode (numbers (operands [] instruction).toList) = some instruction := by
  cases instruction with
  | constant | constantInt32 | constantDouble => cases plain
  | allocate | store | load | equal | extract | jump | branch | add | leave =>
      simp [operands, toString_text, ofNumbers, Instruction.opcode]
  | call dest callee args =>
      have label : label [] callee = "fn#" ++ callee.index.repr := rfl
      have same : FuncId.ofIndex callee.index = callee := by simp [FuncId.ofIndex, FuncId.index]
      simp [operands, toString_text, label, numbers_args, ofNumbers, Instruction.opcode, same,
        Function.comp_def]
  | execute dest callee args =>
      simp [operands, toString_text, numbers_args, ofNumbers, Instruction.opcode,
        Function.comp_def]

/-! ## Constants -/

/-- The instruction of this opcode that puts a constant into `dest`. -/
def ofConstant : Opcode → Slot → Value → Option Instruction
  | .constant .any, dest, value => some (.constant dest value)
  | .constant (.only .int32), dest, .int32 value => some (.constantInt32 dest value)
  | .constant (.only .double), dest, .double value => some (.constantDouble dest value)
  | _, _, _ => none

theorem exists_dest_of_value? {instruction : Instruction} {value : Value}
    (carried : instruction.value? = some value) :
    ∃ dest, ofConstant instruction.opcode dest value = some instruction ∧
      (operands [] instruction).toList =
        (slot dest).toList ++ ' ' :: '<' :: '-' :: ' ' :: value.text.toList := by
  cases instruction with
  | constant dest value =>
      cases carried
      exact ⟨dest, rfl, by simp [operands, toString_text]⟩
  | constantInt32 dest value =>
      cases carried
      exact ⟨dest, rfl, by simp [operands]⟩
  | constantDouble dest value =>
      cases carried
      exact ⟨dest, rfl, by simp [operands]⟩
  | allocate | store | load | equal | extract | jump | branch | add | call | leave | execute =>
      cases carried

theorem ofNumbers_of_value? {instruction : Instruction} {value : Value}
    (carried : instruction.value? = some value) (numbers : List Nat) :
    ofNumbers instruction.opcode numbers = none := by
  cases instruction with
  | constant | constantInt32 | constantDouble => rfl
  | allocate | store | load | equal | extract | jump | branch | add | call | leave | execute =>
      cases carried

/-! ## Instructions -/

/-- If the constant of an instruction is a double, it is a number. -/
def Legible (instruction : Instruction) : Prop :=
  ∀ value, instruction.value? = some (.double value) → value.isNaN = false

/-- Mnemonics fill their column, and differ in it. -/
theorem instruction_parts {a b : Instruction}
    (same : (instruction [] a).toList = (instruction [] b).toList) :
    a.opcode = b.opcode ∧ (operands [] a).toList = (operands [] b).toList := by
  have width : ∀ opcode ∈ Opcode.all, (padRight 12 opcode.mnemonic).toList.length = 12 := by decide
  have apart : ∀ a ∈ Opcode.all, ∀ b ∈ Opcode.all,
      (padRight 12 a.mnemonic).toList = (padRight 12 b.mnemonic).toList → a = b := by decide
  rw [instruction, instruction, String.toList_append, String.toList_append] at same
  obtain ⟨mnemonics, operands⟩ := List.append_inj same
    ((width _ a.opcode.mem_all).trans (width _ b.opcode.mem_all).symm)
  exact ⟨apart _ a.opcode.mem_all _ b.opcode.mem_all mnemonics, operands⟩

theorem constant_inj {a b : Instruction} {value value' : Value} (legible : Legible a)
    (legible' : Legible b) (carried : a.value? = some value) (carried' : b.value? = some value')
    (opcode : a.opcode = b.opcode)
    (same : (operands [] a).toList = (operands [] b).toList) : a = b := by
  obtain ⟨dest, made, text⟩ := exists_dest_of_value? carried
  obtain ⟨dest', made', text'⟩ := exists_dest_of_value? carried'
  rw [text, text'] at same
  have blank : ∀ dest, ' ' ∉ (slot dest).toList := by simp [not_mem_toDigits]
  obtain ⟨slots, values⟩ := append_cons_inj (blank dest) (blank dest') same
  rw [toList_slot, toList_slot] at slots
  have dests : dest = dest' :=
    UInt16.toNat_inj.mp (toDigits_inj (by decide) (by decide) (List.cons.inj slots).2)
  have values : value = value' := by
    refine Value.text_inj ?_ ?_ (by simpa using values)
    · rintro double rfl
      exact legible double carried
    · rintro double rfl
      exact legible' double carried'
  rw [opcode, dests, values, made'] at made
  exact (Option.some.inj made).symm

/-- Instructions have different texts, as long as doubles are numbers. -/
theorem instruction_inj {a b : Instruction} (legible : Legible a) (legible' : Legible b)
    (same : (instruction [] a).toList = (instruction [] b).toList) : a = b := by
  obtain ⟨opcode, operands⟩ := instruction_parts same
  cases carried : a.value? with
  | none =>
      have made := ofNumbers_operands carried
      rw [opcode, operands] at made
      cases carried' : b.value? with
      | none =>
          rw [ofNumbers_operands carried'] at made
          exact (Option.some.inj made).symm
      | some value' =>
          rw [ofNumbers_of_value? carried'] at made
          cases made
  | some value =>
      cases carried' : b.value? with
      | none =>
          have made := ofNumbers_operands carried'
          rw [← opcode, ofNumbers_of_value? carried] at made
          cases made
      | some value' => exact constant_inj legible legible' carried carried' opcode operands

end Listing
end RegisterMachine
