import Mathlib.Data.Option.Defs
import RegisterMachine.Instruction

/-!
When two instructions are equal to the machine.

Two instructions agree if they have the same opcode and the same operands, where constants compare
as values do. Opcode and operands make up an instruction, so equal instructions agree, and those
that agree are equal. The one exception is a not-a-number in a double constant: as a value it equals
itself, and as the operand it does not.
-/
set_option autoImplicit false

namespace RegisterMachine

/-! ## Doubles and values -/

namespace Double

theorem numericallyEqual_self (d : Double) : d.numericallyEqual d = !d.isNaN := by
  simp [numericallyEqual]

theorem isNaN_eq_false_of_numericallyEqual {a b : Double} (same : a.numericallyEqual b = true) :
    a.isNaN = false := by
  simp only [numericallyEqual, Bool.and_eq_true, Bool.not_eq_true'] at same
  exact same.1.1

end Double

namespace Value

theorem equals_self (value : Value) : value.equals value = true := by
  cases value with
  | double value =>
      simp only [equals, Double.numericallyEqual_self]
      cases value.isNaN <;> rfl
  | null | undefined | boolean | int32 | tagged => simp [equals]

theorem equals_double_iff {a b : Double} :
    (Value.double a).equals (.double b) = true ↔
      a.numericallyEqual b = true ∨ a.isNaN = true ∧ b.isNaN = true := by
  simp [equals]

theorem eq_or_double_of_equals {a b : Value} (equal : a.equals b = true) :
    a = b ∨ ∃ one other, a = .double one ∧ b = .double other := by
  fun_cases equals a b with
  | case1 one other => exact .inr ⟨one, other, rfl, rfl⟩
  | case2 => exact .inl (by simpa [equals] using equal)

end Value

namespace Instruction

variable {a b : Instruction}

/-! ## Agreement -/

/-- The same opcode and the same operands; constants compare as values. -/
structure Agrees (a b : Instruction) : Prop where
  opcode : a.opcode = b.opcode
  dest : a.dest? = b.dest?
  x : a.x? = b.x?
  y : a.y? = b.y?
  target : a.target? = b.target?
  value : Option.Rel (fun one other => one.equals other = true) a.value? b.value?
  callee : a.callee? = b.callee?
  args : a.args? = b.args?

theorem Agrees.refl (a : Instruction) : a.Agrees a where
  opcode := rfl
  dest := rfl
  x := rfl
  y := rfl
  target := rfl
  value := by
    cases a.value? with
    | none => exact .none
    | some value => exact .some value.equals_self
  callee := rfl
  args := rfl

/-- The instruction that an opcode and operands make up. -/
def ofOperands (opcode : Opcode) (dest x y target : Option Slot) (value : Option Value)
    (callee : Option FuncId) (args : Option (List Slot)) : Option Instruction :=
  match opcode with
  | .allocate access => return .allocate access (← dest)
  | .store access => return .store access (← x) (← y)
  | .load access => return .load access (← dest) (← x)
  | .equal => return .equal (← dest) (← x) (← y)
  | .constant .any => return .constant (← dest) (← value)
  | .constant (.only .int32) => return .constantInt32 (← dest) (← (← value).int32?)
  | .constant (.only .double) => return .constantDouble (← dest) (← (← value).double?)
  | .extract kind => return .extract kind (← dest) (← x)
  | .jump => return .jump (← target)
  | .branch => return .branch (← x) (← target)
  | .add => return .add (← dest) (← x) (← y)
  | .call => return .call (← dest) (← callee) (← args)
  | .leave => return .leave (← x)
  | .execute => return .execute (← dest) (← x) (← args)

theorem ofOperands_self (a : Instruction) :
    ofOperands a.opcode a.dest? a.x? a.y? a.target? a.value? a.callee? a.args? = some a := by
  cases a <;> rfl

/-- Instructions that agree to the bit are the same. -/
theorem Agrees.eq (agrees : a.Agrees b) (same : a.value? = b.value?) : a = b := by
  have made := ofOperands_self a
  rw [agrees.opcode, agrees.dest, agrees.x, agrees.y, agrees.target, same, agrees.callee,
    agrees.args, ofOperands_self b] at made
  exact (Option.some.inj made).symm

/-! ## Equality -/

/-- The operand of a double constant is not a number. -/
def carriesNaN : Instruction → Bool
  | .constantDouble _ value => value.isNaN
  | _ => false

theorem equals_self (a : Instruction) : a.equals a = !a.carriesNaN := by
  cases a with
  | constant dest value => simp [equals, carriesNaN, value.equals_self]
  | constantDouble dest value => simp [equals, carriesNaN, value.numericallyEqual_self]
  | allocate | store | load | equal | constantInt32 | extract | jump | branch | add | call | leave
  | execute => simp [equals, carriesNaN]

theorem agrees_of_equals (equal : a.equals b = true) : a.Agrees b ∧ a.carriesNaN = false := by
  fun_cases equals a b with
  | case1 dest value dest' value' =>
      simp only [equals, Bool.and_eq_true, decide_eq_true_eq] at equal
      obtain ⟨rfl, same⟩ := equal
      exact ⟨⟨rfl, rfl, rfl, rfl, rfl, .some same, rfl, rfl⟩, rfl⟩
  | case2 dest value dest' value' =>
      simp only [equals, Bool.and_eq_true, decide_eq_true_eq] at equal
      obtain ⟨rfl, same⟩ := equal
      have value := Value.equals_double_iff.mpr (.inl same)
      exact ⟨⟨rfl, rfl, rfl, rfl, rfl, .some value, rfl, rfl⟩,
        Double.isNaN_eq_false_of_numericallyEqual same⟩
  | case3 constants doubles =>
      obtain rfl : a = b := by simpa [equals] using equal
      rw [equals_self, Bool.not_eq_true'] at equal
      exact ⟨.refl a, equal⟩

theorem exists_of_value?_eq_double {value : Double} (carried : a.value? = some (.double value)) :
    ∃ dest, a = .constant dest (.double value) ∨ a = .constantDouble dest value := by
  cases a with
  | constant dest value =>
      cases carried
      exact ⟨dest, .inl rfl⟩
  | constantDouble dest value =>
      cases carried
      exact ⟨dest, .inr rfl⟩
  | allocate | store | load | equal | constantInt32 | extract | jump | branch | add | call | leave
  | execute => cases carried

/-- Constants that agree are the same or doubles. -/
theorem Agrees.value_eq_or (agrees : a.Agrees b) :
    a.value? = b.value? ∨ ∃ one other, a.value? = some (.double one) ∧
      b.value? = some (.double other) ∧ (Value.double one).equals (.double other) = true := by
  have value := agrees.value
  generalize a.value? = one at value ⊢
  generalize b.value? = other at value ⊢
  cases value with
  | none => exact .inl rfl
  | some same =>
      rcases Value.eq_or_double_of_equals same with rfl | ⟨one, other, rfl, rfl⟩
      · exact .inl rfl
      · exact .inr ⟨one, other, rfl, rfl, same⟩

theorem equals_of_agrees (agrees : a.Agrees b) (number : a.carriesNaN = false) :
    a.equals b = true := by
  rcases agrees.value_eq_or with same | ⟨one, other, carried, carried', equal⟩
  · rw [← agrees.eq same, equals_self, number]
    rfl
  · have dest := agrees.dest
    -- The opcode tells plain constants from double constants.
    obtain ⟨_, rfl | rfl⟩ := exists_of_value?_eq_double carried
    · obtain ⟨_, rfl | rfl⟩ := exists_of_value?_eq_double carried'
      · cases dest
        simp [equals, equal]
      · cases agrees.opcode
    · obtain ⟨_, rfl | rfl⟩ := exists_of_value?_eq_double carried'
      · cases agrees.opcode
      · cases dest
        rcases Value.equals_double_iff.mp equal with equal | ⟨nan, -⟩
        · simp [equals, equal]
        · rw [carriesNaN, nan] at number
          cases number

/-- Two instructions are equal if and only if they agree in opcode and operands, unless the operand
of a double constant is not a number: such an instruction agrees with itself and equals none. -/
theorem equals_iff_agrees (a b : Instruction) :
    (a.equals b = true ↔ a.Agrees b ∧ a.carriesNaN = false) ∧
      a.Agrees a ∧ (a.equals a = true ↔ a.carriesNaN = false) := by
  refine ⟨⟨agrees_of_equals, fun ⟨agrees, number⟩ => equals_of_agrees agrees number⟩, .refl a, ?_⟩
  rw [equals_self, Bool.not_eq_true']

/-- A double constant that is not a number differs from itself. The same value in a plain constant
does not. -/
theorem nan_constant_differs_from_itself :
    let nan := Double.notANumber false
    (constantDouble 0 nan).Agrees (.constantDouble 0 nan) ∧
      (constantDouble 0 nan).equals (.constantDouble 0 nan) = false ∧
      (constant 0 (.double nan)).equals (.constant 0 (.double nan)) = true :=
  ⟨.refl _, by decide, by decide⟩

end Instruction
end RegisterMachine
