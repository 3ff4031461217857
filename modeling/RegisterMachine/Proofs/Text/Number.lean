import RegisterMachine.Text.Number

/-!
Numbers read back as they were written, alone and in the midst of other text.
-/
set_option autoImplicit false

namespace RegisterMachine.Text

/-! ## Digits -/

theorem isDigit_of_mem_toDigits {c : Char} {n : Nat} (member : c ∈ Nat.toDigits 10 n) :
    c.isDigit = true :=
  Nat.isDigit_of_mem_toDigits (by decide) (by decide) member

theorem all_isDigit_toDigits (n : Nat) : (Nat.toDigits 10 n).all Char.isDigit = true :=
  List.all_eq_true.mpr fun _ member => isDigit_of_mem_toDigits member

theorem not_mem_toDigits {c : Char} (other : c.isDigit = false) (n : Nat) :
    c ∉ Nat.toDigits 10 n := by
  intro member
  rw [isDigit_of_mem_toDigits member] at other
  cases other

/-- A number begins with a digit. -/
theorem toDigits_eq_cons (n : Nat) :
    ∃ first rest, Nat.toDigits 10 n = first :: rest ∧ first.isDigit = true := by
  cases digits : Nat.toDigits 10 n with
  | nil => exact absurd digits Nat.toDigits_ne_nil
  | cons first rest =>
      have all := all_isDigit_toDigits n
      rw [digits, List.all_cons, Bool.and_eq_true] at all
      exact ⟨first, rest, rfl, all.1⟩

/-! ## Reading -/

theorem readNat?_toDigits (n : Nat) : readNat? (Nat.toDigits 10 n) = some n := by
  simp [readNat?, all_isDigit_toDigits]

theorem readUnsigned?_of_isDigit {first : Char} (digit : first.isDigit = true) (rest : List Char) :
    readUnsigned? (first :: rest) = readNat? (first :: rest) := by
  unfold readUnsigned?
  split
  · rename_i same
    cases same
    cases digit
  · rfl

theorem readUnsigned?_toDigits (n : Nat) : readUnsigned? (Nat.toDigits 10 n) = some n := by
  obtain ⟨first, rest, digits, digit⟩ := toDigits_eq_cons n
  rw [digits, readUnsigned?_of_isDigit digit, ← digits, readNat?_toDigits]

theorem readUInt16?_toDigits (n : UInt16) : readUInt16? (Nat.toDigits 10 n.toNat) = some n := by
  simp [readUInt16?, readUnsigned?_toDigits, n.toNat_lt]

theorem readSigned?_toDigits (n : Nat) : readSigned? (Nat.toDigits 10 n) = some (n : Int) := by
  obtain ⟨first, rest, digits, digit⟩ := toDigits_eq_cons n
  unfold readSigned?
  split
  · rename_i same
    rw [digits] at same
    cases same
    cases digit
  · rw [readUnsigned?_toDigits]
    rfl

theorem readSigned?_minus_toDigits (n : Nat) :
    readSigned? ('-' :: Nat.toDigits 10 n) = some (-(n : Int)) := by
  rw [readSigned?, readNat?_toDigits]
  rfl

/-- An integer is its digits, after a sign if it is negative. -/
theorem toList_toString_int (n : Int) :
    (toString n).toList = if 0 ≤ n then Nat.toDigits 10 n.toNat
      else '-' :: Nat.toDigits 10 (-n).toNat := by
  cases n with
  | ofNat n =>
      have text : toString (Int.ofNat n) = n.repr := rfl
      rw [text, Nat.toList_repr, if_pos (by simp)]
      rfl
  | negSucc n =>
      have text : toString (Int.negSucc n) = "-" ++ (n + 1).repr := rfl
      rw [text, String.toList_append, Nat.toList_repr, if_neg (by omega)]
      rfl

theorem readSigned?_toString (n : Int) : readSigned? (toString n).toList = some n := by
  rw [toList_toString_int]
  split
  · rw [readSigned?_toDigits]
    congr 1
    omega
  · rw [readSigned?_minus_toDigits]
    congr 1
    omega

theorem readInt32?_toString (n : Int32) : readInt32? (toString n.toInt).toList = some n := by
  have lower := n.le_toInt
  have upper := n.toInt_lt
  have inside : -0x80000000 ≤ n.toInt ∧ n.toInt < 0x80000000 := ⟨by omega, by omega⟩
  rw [readInt32?, readSigned?_toString]
  exact (if_pos inside).trans (congrArg some n.ofInt_toInt)

/-! ## Digits up to `f` -/

theorem digitChar_inj {a b : Nat} (small : a < 16) (small' : b < 16)
    (same : a.digitChar = b.digitChar) : a = b := by
  have apart : ∀ a < 16, ∀ b < 16, Nat.digitChar a = Nat.digitChar b → a = b := by decide
  exact apart a small b small' same

theorem exists_digitChar_of_mem_toDigits {base n : Nat} {c : Char} (least : 1 < base)
    (member : c ∈ Nat.toDigits base n) : ∃ digit < base, c = digit.digitChar := by
  induction n using Nat.strongRecOn with
  | ind n ih =>
      rw [Nat.toDigits_eq_if least] at member
      split at member
      · exact ⟨n, ‹_›, List.mem_singleton.mp member⟩
      · rcases List.mem_append.mp member with front | last
        · exact ih (n / base) (Nat.div_lt_self (by omega) least) front
        · exact ⟨n % base, Nat.mod_lt n (by omega), List.mem_singleton.mp last⟩

theorem toDigits_inj {base n m : Nat} (least : 1 < base) (most : base ≤ 16)
    (same : Nat.toDigits base n = Nat.toDigits base m) : n = m := by
  have digit : ∀ k, k % base < 16 := fun k => Nat.lt_of_lt_of_le (Nat.mod_lt k (by omega)) most
  have longer : ∀ (k : Nat) (c d : Char), Nat.toDigits base k ++ [c] ≠ [d] := by
    intro k c d single
    have lengths := congrArg List.length single
    have some : 0 < (Nat.toDigits base k).length := Nat.length_toDigits_pos
    simp only [List.length_append, List.length_singleton] at lengths
    omega
  induction n using Nat.strongRecOn generalizing m with
  | ind n ih =>
      rw [Nat.toDigits_eq_if (n := n) least, Nat.toDigits_eq_if (n := m) least] at same
      by_cases small : n < base
      · by_cases small' : m < base
        · rw [if_pos small, if_pos small'] at same
          exact digitChar_inj (by omega) (by omega) (List.singleton_inj.mp same)
        · rw [if_pos small, if_neg small'] at same
          exact absurd same.symm (longer _ _ _)
      · by_cases small' : m < base
        · rw [if_neg small, if_pos small'] at same
          exact absurd same (longer _ _ _)
        · rw [if_neg small, if_neg small'] at same
          obtain ⟨front, last⟩ := List.append_inj' same rfl
          have rest := ih (n / base) (Nat.div_lt_self (by omega) least) front
          have unit := digitChar_inj (digit n) (digit m) (List.singleton_inj.mp last)
          rw [← Nat.div_add_mod n base, ← Nat.div_add_mod m base, rest, unit]

/-! ## Numbers in the midst of text -/

/-- The numbers in a text are its runs of digits. -/
def numbers (text : List Char) : List Nat :=
  ((text.splitOnP (!·.isDigit)).filter (· ≠ [])).map (Nat.ofDigitChars 10 · 0)

/-- A run of digits goes no further than to this text. -/
def Ends (rest : List Char) : Prop :=
  ∀ c ∈ rest.head?, c.isDigit = false

@[simp]
theorem ends_nil : Ends [] := by
  simp [Ends]

@[simp]
theorem ends_cons {c : Char} {rest : List Char} : Ends (c :: rest) ↔ c.isDigit = false := by
  simp [Ends]

@[simp]
theorem numbers_nil : numbers [] = [] := by
  simp [numbers]

@[simp]
theorem numbers_cons {c : Char} (other : c.isDigit = false) (rest : List Char) :
    numbers (c :: rest) = numbers rest := by
  simp [numbers, List.splitOnP_cons_eq_if_modifyHead, other]

theorem numbers_digits_append {digits rest : List Char} (all : ∀ c ∈ digits, c.isDigit = true)
    (some : digits ≠ []) (ends : Ends rest) :
    numbers (digits ++ rest) = Nat.ofDigitChars 10 digits 0 :: numbers rest := by
  have inside : ∀ c ∈ digits, (!c.isDigit) = false := by simpa using all
  cases rest with
  | nil => simp [numbers, List.splitOnP_eq_singleton inside, some]
  | cons c rest =>
      have outside := ends_cons.mp ends
      rw [numbers_cons outside]
      simp [numbers, List.splitOnP_append_cons_of_forall_mem inside, outside, some]

@[simp]
theorem numbers_toDigits_append (n : Nat) {rest : List Char} (ends : Ends rest) :
    numbers (Nat.toDigits 10 n ++ rest) = n :: numbers rest := by
  have digits : ∀ c ∈ Nat.toDigits 10 n, c.isDigit = true :=
    fun _ member => isDigit_of_mem_toDigits member
  rw [numbers_digits_append digits Nat.toDigits_ne_nil ends, Nat.ofDigitChars_ten_toDigits]

@[simp]
theorem numbers_toDigits (n : Nat) : numbers (Nat.toDigits 10 n) = [n] := by
  simpa using numbers_toDigits_append n ends_nil

end RegisterMachine.Text
