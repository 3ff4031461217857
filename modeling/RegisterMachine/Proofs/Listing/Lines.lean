import RegisterMachine.Proofs.Listing.Operands

/-!
What a listing shows of code, line by line.

Each instruction has a line that begins with its index, and instructions that jumps or branches name
have a mark on it and a separator above it. Lines that begin with a digit are those of the
instructions, in order, so the listing shows the instructions' texts and with them the code.
-/
set_option autoImplicit false

namespace RegisterMachine

/-! ## Line breaks and marks -/

/-- A text without line breaks and marks. -/
def Unmarked (text : List Char) : Prop :=
  ∀ c ∈ text, c ≠ '\n' ∧ c ≠ '►'

@[simp]
theorem unmarked_nil : Unmarked [] := by
  simp [Unmarked]

@[simp]
theorem unmarked_cons {c : Char} {text : List Char} :
    Unmarked (c :: text) ↔ (c ≠ '\n' ∧ c ≠ '►') ∧ Unmarked text :=
  List.forall_mem_cons

@[simp]
theorem unmarked_append {front back : List Char} :
    Unmarked (front ++ back) ↔ Unmarked front ∧ Unmarked back :=
  List.forall_mem_append

theorem Unmarked.newline_not_mem {text : List Char} (unmarked : Unmarked text) : '\n' ∉ text :=
  fun member => (unmarked _ member).1 rfl

theorem Unmarked.mark_not_mem {text : List Char} (unmarked : Unmarked text) : '►' ∉ text :=
  fun member => (unmarked _ member).2 rfl

theorem unmarked_of_isDigit {text : List Char} (digits : ∀ c ∈ text, c.isDigit = true) :
    Unmarked text := by
  intro c member
  have digit := digits c member
  constructor
  · rintro rfl
    cases digit
  · rintro rfl
    cases digit

@[simp]
theorem unmarked_toDigits (n : Nat) : Unmarked (Nat.toDigits 10 n) :=
  unmarked_of_isDigit fun _ => Text.isDigit_of_mem_toDigits

theorem unmarked_hex (n : Nat) : Unmarked (Nat.toDigits 16 n) := by
  have letters : ∀ digit < 16, Nat.digitChar digit ≠ '\n' ∧ Nat.digitChar digit ≠ '►' := by decide
  intro c member
  obtain ⟨digit, small, rfl⟩ := Text.exists_digitChar_of_mem_toDigits (by decide) member
  exact letters digit small

theorem unmarked_intercalate {separator : List Char} {texts : List (List Char)}
    (between : Unmarked separator) (all : ∀ text ∈ texts, Unmarked text) :
    Unmarked (separator.intercalate texts) := by
  induction texts with
  | nil => simp
  | cons text texts ih =>
      obtain ⟨first, others⟩ := List.forall_mem_cons.mp all
      cases texts with
      | nil => simpa using first
      | cons next texts =>
          rw [List.intercalate_cons_cons, unmarked_append, unmarked_append]
          exact ⟨⟨first, between⟩, ih others⟩

theorem Value.unmarked_text (value : Value) : Unmarked value.text.toList := by
  cases value with
  | null | undefined => simp [text]
  | boolean value => cases value <;> simp [text]
  | int32 value =>
      rw [toList_text_int32, Text.toList_toString_int]
      split <;> simp
  | double value =>
      rw [toList_text_double]
      refine unmarked_cons.mpr ⟨by decide, fun c member => ?_⟩
      have letters := Double.mem_text member
      constructor <;> rintro rfl <;> revert letters <;> decide
  | tagged tag word =>
      rw [toList_text_tagged]
      cases tag with
      | nativeCallback | code => simp [Tag.text, unmarked_hex]
      | user number =>
          rw [Tag.toList_text_user]
          simp [unmarked_hex]

namespace Listing

open Text

@[simp]
theorem unmarked_index (number : Nat) : Unmarked (index number).toList :=
  unmarked_of_isDigit fun _ => isDigit_of_mem_index

theorem unmarked_operands (instruction : Instruction) :
    Unmarked (operands [] instruction).toList := by
  cases instruction with
  | constant | constantInt32 | constantDouble =>
      simp [operands, toString_text, Value.unmarked_text]
  | allocate | store | load | equal | extract | jump | branch | add | leave =>
      simp [operands, toString_text]
  | call dest callee args =>
      have label : label [] callee = "fn#" ++ callee.index.repr := rfl
      have list : Unmarked ([',', ' '].intercalate
          (args.map fun arg => '@' :: Nat.toDigits 10 arg.toNat)) :=
        unmarked_intercalate (by simp) (by simp)
      simpa [operands, toString_text, label, Function.comp_def] using list
  | execute dest callee args =>
      have list : Unmarked ([',', ' '].intercalate
          (args.map fun arg => 'r' :: Nat.toDigits 10 arg.toNat)) :=
        unmarked_intercalate (by simp) (by simp)
      simpa [operands, toString_text, Function.comp_def] using list

theorem unmarked_mnemonic (opcode : Opcode) : Unmarked opcode.mnemonic.toList := by
  have kinds : ∀ kind : Numeric, Unmarked kind.ending.toList := by
    intro kind
    cases kind <;> simp [Numeric.ending]
  have accesses : ∀ access : Access, Unmarked access.ending.toList := by
    intro access
    cases access <;> simp [Access.ending, kinds]
  cases opcode <;> simp [Opcode.mnemonic, kinds, accesses]

theorem unmarked_padRight {text : String} (width : Nat) (unmarked : Unmarked text.toList) :
    Unmarked (padRight width text).toList := by
  rw [padRight, String.toList_ofList, List.rightpad, unmarked_append]
  refine ⟨unmarked, fun c member => ?_⟩
  rw [List.eq_of_mem_replicate member]
  decide

theorem unmarked_instruction (instr : Instruction) : Unmarked (instruction [] instr).toList := by
  rw [instruction, String.toList_append, unmarked_append]
  exact ⟨unmarked_padRight 12 (unmarked_mnemonic _), unmarked_operands instr⟩

/-! ## Lines -/

theorem splitOn_lines {texts : List (List Char)} (whole : ∀ text ∈ texts, '\n' ∉ text) :
    (texts.flatMap (· ++ ['\n'])).splitOn '\n' = texts ++ [[]] := by
  induction texts with
  | nil => simp
  | cons text texts ih =>
      obtain ⟨first, others⟩ := List.forall_mem_cons.mp whole
      rw [List.flatMap_cons, List.append_assoc, List.singleton_append,
        List.splitOn_append_cons_self, ih others, List.splitOn_eq_singleton first]
      rfl

/-- The line above an instruction that is jumped to. -/
def ruled : List Char :=
  List.replicate 6 ' ' ++ '┌' :: List.replicate 34 '─'

theorem toList_separator : separator.toList = ruled ++ ['\n'] := by
  decide +kernel

/-- The line of an instruction. -/
def row (targets : List Nat) (entry : Instruction × Nat) : List Char :=
  (index entry.2).toList ++ ' ' :: (if entry.2 ∈ targets then '►' else ' ') :: ' ' ::
    (instruction [] entry.1).toList

/-- The line of an instruction after what stands above it. -/
def rows (targets : List Nat) (entry : Instruction × Nat) : List (List Char) :=
  (if entry.2 ∈ targets then [ruled] else []) ++ [row targets entry]

theorem toList_lines (targets : List Nat) (entry : Instruction × Nat) :
    (lines [] targets entry.1 entry.2).toList = (rows targets entry).flatMap (· ++ ['\n']) := by
  unfold lines rows row
  split
  · simp [toList_separator]
  · simp

theorem newline_not_mem_row (targets : List Nat) (entry : Instruction × Nat) :
    '\n' ∉ row targets entry := by
  have number := (unmarked_index entry.2).newline_not_mem
  have text := (unmarked_instruction entry.1).newline_not_mem
  unfold row
  split <;> simp [number, text]

/-- The lines of a listing. -/
theorem splitOn_code (code : List Instruction) :
    (Listing.code [] code).toList.splitOn '\n' =
      code.zipIdx.flatMap (rows (targets code)) ++ [[]] := by
  have whole : ∀ text ∈ code.zipIdx.flatMap (rows (targets code)), '\n' ∉ text := by
    intro text member
    obtain ⟨entry, -, inside⟩ := List.mem_flatMap.mp member
    rcases List.mem_append.mp inside with above | here
    · obtain rfl : text = ruled := by
        split at above
        · exact List.mem_singleton.mp above
        · cases above
      decide
    · rw [List.mem_singleton.mp here]
      exact newline_not_mem_row _ entry
  rw [← splitOn_lines whole, Listing.code, String.toList_join, List.flatMap_map, List.flatMap_assoc]
  congr 2
  funext entry
  exact toList_lines _ entry

/-! ## Instructions read off their lines -/

/-- The line of an instruction begins with its index, and with no other one. -/
theorem prefix_row_iff {targets : List Nat} {entry : Instruction × Nat} {pc : Nat} :
    (index pc).toList ++ [' '] <+: row targets entry ↔ entry.2 = pc := by
  have blank : ∀ pc, ' ' ∉ (index pc).toList := by
    intro pc member
    cases isDigit_of_mem_index member
  constructor
  · rintro ⟨rest, same⟩
    rw [row, List.append_assoc, List.singleton_append] at same
    -- Both indices end at their first blank, and padding does not change the numbers they show.
    have numbers := congrArg numbers (append_cons_inj (blank pc) (blank entry.2) same).1
    rw [numbers_index, numbers_index] at numbers
    exact (List.cons.inj numbers).1.symm
  · rintro rfl
    exact ⟨_, (List.append_cons ..).symm⟩

/-- The line begins with a number. -/
def isNumbered (line : List Char) : Bool :=
  line.head?.any Char.isDigit

theorem isNumbered_of_index {pc : Nat} {line : List Char}
    (here : (index pc).toList ++ [' '] <+: line) : isNumbered line = true := by
  obtain ⟨first, rest, digits⟩ := List.exists_cons_of_ne_nil (index_ne_nil pc)
  obtain ⟨more, rfl⟩ := here
  have digit : first.isDigit = true := by
    apply isDigit_of_mem_index
    rw [digits]
    exact List.mem_cons_self
  simp [isNumbered, digits, digit]

theorem isNumbered_row (targets : List Nat) (entry : Instruction × Nat) :
    isNumbered (row targets entry) = true :=
  isNumbered_of_index (prefix_row_iff.mpr rfl)

theorem isNumbered_ruled : isNumbered ruled = false := by
  decide

theorem filter_rows (targets : List Nat) (entry : Instruction × Nat) :
    (rows targets entry).filter isNumbered = [row targets entry] := by
  unfold rows
  split <;> simp [isNumbered_row, isNumbered_ruled]

/-- What the numbered lines of a text say behind their numbers and marks. -/
def bodies (text : List Char) : List (List Char) :=
  ((text.splitOn '\n').filter isNumbered).map fun line => (line.dropWhile Char.isDigit).drop 3

theorem drop_row (targets : List Nat) (entry : Instruction × Nat) :
    ((row targets entry).dropWhile Char.isDigit).drop 3 = (instruction [] entry.1).toList := by
  rw [row, List.dropWhile_append_of_pos (fun _ => isDigit_of_mem_index)]
  simp

theorem numbered_code (code : List Instruction) :
    ((Listing.code [] code).toList.splitOn '\n').filter isNumbered =
      code.zipIdx.map (row (targets code)) := by
  have last : [[]].filter isNumbered = [] := rfl
  rw [splitOn_code, List.filter_append, List.filter_flatMap, last, List.append_nil,
    List.map_eq_flatMap]
  congr 1
  funext entry
  exact filter_rows _ entry

/-- The numbered lines of a listing show the texts of the instructions. -/
theorem bodies_code (code : List Instruction) :
    bodies (Listing.code [] code).toList = code.map fun instr => (instruction [] instr).toList := by
  have body : (fun line => (List.dropWhile Char.isDigit line).drop 3) ∘ row (targets code) =
      (fun instr => (instruction [] instr).toList) ∘ Prod.fst := by
    funext entry
    rw [Function.comp_apply, Function.comp_apply, drop_row]
  rw [bodies, numbered_code, List.map_map, body, ← List.map_map, List.zipIdx_map_fst]

theorem eq_of_map_instruction {code other : List Instruction}
    (legible : ∀ instr ∈ code, Legible instr) (legible' : ∀ instr ∈ other, Legible instr)
    (same : code.map (fun instr => (instruction [] instr).toList) =
      other.map fun instr => (instruction [] instr).toList) : code = other := by
  induction code generalizing other with
  | nil => exact (List.map_eq_nil_iff.mp same.symm).symm
  | cons instr code ih =>
      cases other with
      | nil => cases same
      | cons instr' other =>
          obtain ⟨first, rest⟩ := List.cons.inj same
          obtain ⟨here, legible⟩ := List.forall_mem_cons.mp legible
          obtain ⟨here', legible'⟩ := List.forall_mem_cons.mp legible'
          rw [instruction_inj here here' first, ih legible legible' rest]

/-! ## Marks -/

/-- A jump or branch names this instruction index. -/
def JumpedTo (code : List Instruction) (pc : Nat) : Prop :=
  ∃ target : UInt16, target.toNat = pc ∧ (.jump target ∈ code ∨ ∃ x, .branch x target ∈ code)

theorem mem_targets_iff {code : List Instruction} {pc : Nat} :
    pc ∈ targets code ↔ JumpedTo code pc := by
  simp only [targets, List.mem_map, List.mem_filterMap, JumpedTo]
  constructor
  · rintro ⟨target, ⟨instr, member, named⟩, rfl⟩
    refine ⟨target, rfl, ?_⟩
    cases instr with
    | jump destination =>
        cases named
        exact .inl member
    | branch x destination =>
        cases named
        exact .inr ⟨x, member⟩
    | _ => cases named
  · rintro ⟨target, rfl, member | ⟨x, member⟩⟩
    · exact ⟨target, ⟨_, member, rfl⟩, rfl⟩
    · exact ⟨target, ⟨_, member, rfl⟩, rfl⟩

theorem mark_mem_row_iff (targets : List Nat) (entry : Instruction × Nat) :
    '►' ∈ row targets entry ↔ entry.2 ∈ targets := by
  have number := (unmarked_index entry.2).mark_not_mem
  have text := (unmarked_instruction entry.1).mark_not_mem
  unfold row
  split <;> simp [*]

theorem getLast?_flatMap_rows_ne (targets : List Nat) (entries : List (Instruction × Nat)) :
    (entries.flatMap (rows targets)).getLast? ≠ some ruled := by
  rcases List.eq_nil_or_concat entries with rfl | ⟨front, entry, rfl⟩
  · simp
  · intro last
    have numbered := isNumbered_row targets entry
    have same : row targets entry = ruled := by simpa [rows] using last
    rw [same, isNumbered_ruled] at numbered
    cases numbered

theorem eq_row_of_split {targets : List Nat} {entry : Instruction × Nat}
    {before after : List (List Char)} {line : List Char} (numbered : isNumbered line = true)
    (split : rows targets entry = before ++ line :: after) :
    line = row targets entry ∧ before = if entry.2 ∈ targets then [ruled] else [] := by
  have single : ∀ {front : List (List Char)}, [row targets entry] = front ++ line :: after →
      line = row targets entry ∧ front = [] := by
    intro front same
    rcases List.append_eq_singleton_iff.mp same.symm with ⟨rfl, last⟩ | ⟨-, nothing⟩
    · exact ⟨(List.cons.inj last).1, rfl⟩
    · cases nothing
  by_cases marked : entry.2 ∈ targets
  · rw [rows, if_pos marked, List.singleton_append] at split
    rw [if_pos marked]
    cases before with
    | nil =>
        rw [List.nil_append, List.cons.injEq] at split
        rw [← split.1, isNumbered_ruled] at numbered
        cases numbered
    | cons first before =>
        rw [List.cons_append, List.cons.injEq] at split
        obtain ⟨same, rfl⟩ := single split.2
        exact ⟨same, by rw [split.1]⟩
  · rw [rows, if_neg marked, List.nil_append] at split
    rw [if_neg marked]
    exact single split

/-- A numbered line of a listing is that of an instruction, and all that comes before it belongs to
other instructions or stands right above it. -/
theorem exists_entry_of_split {targets : List Nat} {entries : List (Instruction × Nat)}
    {before after : List (List Char)} {line : List Char} (numbered : isNumbered line = true)
    (split : entries.flatMap (rows targets) ++ [[]] = before ++ line :: after) :
    ∃ (entry : Instruction × Nat) (front : List (Instruction × Nat)), line = row targets entry ∧
      before = front.flatMap (rows targets) ++ if entry.2 ∈ targets then [ruled] else [] := by
  induction entries generalizing before with
  | nil =>
      rcases List.append_eq_singleton_iff.mp split.symm with ⟨-, last⟩ | ⟨-, nothing⟩
      · obtain ⟨rfl, -⟩ := List.cons.inj last
        cases numbered
      · cases nothing
  | cons entry entries ih =>
      rw [List.flatMap_cons, List.append_assoc] at split
      have later : ∀ more, before = rows targets entry ++ more →
          entries.flatMap (rows targets) ++ [[]] = more ++ line :: after →
          ∃ (entry : Instruction × Nat) (front : List (Instruction × Nat)),
            line = row targets entry ∧ before = front.flatMap (rows targets) ++
              if entry.2 ∈ targets then [ruled] else [] := by
        rintro more rfl rest
        obtain ⟨found, front, same, rfl⟩ := ih rest
        exact ⟨found, entry :: front, same, by rw [List.flatMap_cons, List.append_assoc]⟩
      -- The lines of the first entry all come before the numbered one, or it is among them.
      rcases List.append_eq_append_iff.mp split with ⟨more, same, rest⟩ | ⟨more, here, rest⟩
      · exact later more same rest
      · cases more with
        | nil => exact later [] (by simpa using here.symm) (by simpa using rest.symm)
        | cons first more =>
            rw [List.cons_append, List.cons.injEq] at rest
            obtain ⟨same, above⟩ := eq_row_of_split numbered (rest.1 ▸ here)
            exact ⟨entry, [], same, above⟩

/-- The line of an instruction has a mark, and a separator above it, if the instruction is jumped
to. -/
theorem marks_of_split {code : List Instruction} {pc : Nat} {before after : List (List Char)}
    {line : List Char}
    (split : (Listing.code [] code).toList.splitOn '\n' = before ++ line :: after)
    (here : (index pc).toList ++ [' '] <+: line) :
    ('►' ∈ line ↔ JumpedTo code pc) ∧ (before.getLast? = some ruled ↔ JumpedTo code pc) := by
  rw [splitOn_code] at split
  obtain ⟨entry, front, same, above⟩ := exists_entry_of_split (isNumbered_of_index here) split
  rw [same] at here ⊢
  have number : entry.2 = pc := prefix_row_iff.mp here
  rw [mark_mem_row_iff, mem_targets_iff, number, above]
  refine ⟨Iff.rfl, ?_⟩
  by_cases marked : JumpedTo code pc
  · rw [number, if_pos (mem_targets_iff.mpr marked), List.getLast?_concat]
    simp only [marked]
  · rw [number, if_neg (mt mem_targets_iff.mp marked), List.append_nil]
    simp only [getLast?_flatMap_rows_ne, marked]

/-! ## Faithfulness -/

/-- A listing without labels determines the code, as long as its doubles are numbers. In it the line
of an instruction, which is the one that begins with the instruction's index, has a mark if and only
if a jump or branch names that index, and so it is with the separator above the line. -/
theorem listing_faithful :
    (∀ code other : List Instruction, (∀ instr ∈ code, Legible instr) →
      (∀ instr ∈ other, Legible instr) → Listing.code [] code = Listing.code [] other →
      code = other) ∧
    ∀ (code : List Instruction) (pc : Nat),
      (∀ inside : pc < code.length, ∃ line ∈ (Listing.code [] code).toList.splitOn '\n',
        (index pc).toList ++ [' '] <+: line ∧ (instruction [] code[pc]).toList <:+ line) ∧
      ∀ before line after, (Listing.code [] code).toList.splitOn '\n' = before ++ line :: after →
        (index pc).toList ++ [' '] <+: line →
        ('►' ∈ line ↔ JumpedTo code pc) ∧ (before.getLast? = some ruled ↔ JumpedTo code pc) := by
  refine ⟨?_, fun code pc => ⟨?_, fun before line after split here => marks_of_split split here⟩⟩
  · intro code other legible legible' same
    apply eq_of_map_instruction legible legible'
    rw [← bodies_code, ← bodies_code, same]
  · intro inside
    have entry : (code[pc], pc) ∈ code.zipIdx :=
      List.mk_mem_zipIdx_iff_getElem?.mpr (List.getElem?_eq_getElem inside)
    refine ⟨row (targets code) (code[pc], pc), ?_, prefix_row_iff.mpr rfl, ?_⟩
    · rw [splitOn_code]
      refine List.mem_append_left _ (List.mem_flatMap.mpr ⟨_, entry, ?_⟩)
      simp [rows]
    · rw [row, List.append_cons, List.append_cons, List.append_cons]
      exact List.suffix_append ..

/-- Code that branches back to its second instruction and has a negative zero. -/
def looping : List Instruction :=
  [.constantDouble 1 ⟨0x8000000000000000⟩, .call 2 ⟨7⟩ [1, 0], .branch 2 1]

theorem listing_faithful_looping :
    (∀ instr ∈ looping, Legible instr) ∧
    (Listing.code [] looping).toList.splitOn '\n' =
      ["0000   CONST_DBL   r1 <- d-0".toList, ruled,
        "0001 ► CALL        r2 <- fn#7(@1, @0)".toList,
        "0002   IF_I32      r2 → 0001".toList, []] ∧
    (∀ other, (∀ instr ∈ other, Legible instr) →
      (Listing.code [] looping = Listing.code [] other ↔ looping = other)) ∧
    JumpedTo looping 1 ∧ ¬ JumpedTo looping 2 := by
  have number : (⟨0x8000000000000000⟩ : Double).isNaN = false := by decide
  have legible : ∀ instr ∈ looping, Legible instr := by
    simp [looping, Legible, Instruction.value?, number]
  have shown : (Listing.code [] looping).toList.splitOn '\n' =
      ["0000   CONST_DBL   r1 <- d-0".toList, ruled,
        "0001 ► CALL        r2 <- fn#7(@1, @0)".toList,
        "0002   IF_I32      r2 → 0001".toList, []] := by
    rw [splitOn_code]
    decide +kernel
  refine ⟨legible, shown, ?_, ?_, ?_⟩
  · intro other legible'
    exact ⟨listing_faithful.1 looping other legible legible', congrArg (Listing.code [])⟩
  · have here := (listing_faithful.2 looping 1).2 [_, _] _ [_, _] shown (by decide +kernel)
    exact here.1.mp (by decide +kernel)
  · have here := (listing_faithful.2 looping 2).2 [_, _, _] _ [_] shown (by decide +kernel)
    exact mt here.1.mpr (by decide +kernel)

end Listing
end RegisterMachine
