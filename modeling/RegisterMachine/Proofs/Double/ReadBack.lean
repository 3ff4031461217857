import Mathlib.Algebra.Ring.Nat
import Mathlib.Data.List.TakeWhile
import RegisterMachine.Double.Shortest
import RegisterMachine.Proofs.Text.Number

/-!
Doubles read back as they were written.

A decimal written out in full is read as the decimal it was, and the decimal that is written for a
double rounds to it: either it has been tried, or it is the double's exact value.
-/
set_option autoImplicit false

namespace RegisterMachine.Double

/-! ## The parts of a double -/

section Parts

variable (d : Double)

theorem ofMagnitude_magnitude : ofMagnitude d.isNegative d.magnitude = d := by
  have bound := d.bits.toNat_lt
  have parts : (if d.isNegative then signBit else 0) + d.magnitude = d.bits.toNat := by
    by_cases negative : signBit ≤ d.bits.toNat
    · simp only [isNegative, magnitude, negative, decide_true, if_true]
      simp only [signBit] at negative ⊢
      omega
    · simp only [isNegative, magnitude, negative, decide_false, Bool.false_eq_true, if_false]
      simp only [signBit] at negative ⊢
      omega
  rw [ofMagnitude, parts, UInt64.ofNat_toNat]

theorem magnitude_eq : d.magnitude = d.scale * hiddenBit + d.significand := by
  simp only [significand, scale, hiddenBit]
  omega

theorem significand_lt : d.significand < 2 ^ 53 := by
  simp only [significand, scale, hiddenBit]
  omega

/-- Below the hidden bit a significand has the least scale. -/
theorem scale_eq_zero_or : d.scale = 0 ∨ 2 ^ 52 ≤ d.significand := by
  simp only [significand, scale, hiddenBit]
  omega

variable {d}

theorem scale_le (finite : d.magnitude < infiniteMagnitude) : d.scale ≤ 2045 := by
  simp only [infiniteMagnitude, hiddenBit] at finite
  simp only [scale, hiddenBit]
  omega

theorem significand_pos (nonzero : 0 < d.magnitude) : 0 < d.significand := by
  have parts := d.magnitude_eq
  rcases d.scale_eq_zero_or with least | normal
  · rw [least] at parts
    omega
  · omega

end Parts

/-! ## Exact values round to themselves -/

theorem roundHalfEven_mul (value : Nat) {denominator : Nat} (positive : 0 < denominator) :
    roundHalfEven (value * denominator) denominator = value := by
  simp [roundHalfEven, positive]

section Exact

variable {significand scale : Nat}

theorem log2_sub_eq_scale (positive : 0 < significand) (short : significand < 2 ^ 53)
    (normal : scale = 0 ∨ 2 ^ 52 ≤ significand) :
    Nat.log2 (significand * 2 ^ scale) - 52 = scale := by
  rcases normal with rfl | normal
  · have small : Nat.log2 significand < 53 := (Nat.log2_lt (by omega)).mpr short
    rw [pow_zero, Nat.mul_one]
    omega
  · have nonzero : significand * 2 ^ scale ≠ 0 :=
      Nat.mul_ne_zero (by omega) (Nat.ne_of_gt (Nat.two_pow_pos scale))
    have exponent : Nat.log2 (significand * 2 ^ scale) = 52 + scale := by
      rw [Nat.log2_eq_iff nonzero, pow_add, Nat.add_right_comm, pow_add _ (52 + 1)]
      exact ⟨Nat.mul_le_mul_right _ normal,
        Nat.mul_lt_mul_of_pos_right short (Nat.two_pow_pos scale)⟩
    omega

theorem mul_five_pow_mul_two_pow (value places : Nat) :
    value * 5 ^ places * 2 ^ places = value * 10 ^ places := by
  rw [Nat.mul_assoc, ← Nat.mul_pow]

theorem ten_pow_pos (places : Nat) : 0 < 10 ^ places :=
  Nat.pow_pos (by decide)

theorem roundFraction_exact (positive : 0 < significand) (short : significand < 2 ^ 53)
    (normal : scale = 0 ∨ 2 ^ 52 ≤ significand) :
    roundFraction (significand * 2 ^ scale * 5 ^ 1074) (10 ^ 1074) =
      min (scale * hiddenBit + significand) infiniteMagnitude := by
  have tens := ten_pow_pos 1074
  rw [roundFraction, Nat.pow_eq, Nat.pow_eq, mul_five_pow_mul_two_pow, Nat.mul_div_cancel _ tens,
    log2_sub_eq_scale positive short normal, Nat.mul_assoc, Nat.mul_comm (2 ^ scale),
    roundHalfEven_mul _ (Nat.mul_pos tens (Nat.two_pow_pos scale))]

end Exact

theorem coefficient_exact (d : Double) :
    d.exact.coefficient = d.significand * 2 ^ d.scale * 5 ^ 1074 := by
  rw [exact, Nat.pow_eq, Nat.pow_eq]

/-- The digits of an exact value reach from the place of `10 ^ 309` at most to that of `10 ^ -331`
at least. -/
theorem length_toDigits_exact {d : Double} (nonzero : 0 < d.magnitude)
    (finite : d.magnitude < infiniteMagnitude) :
    743 < (Nat.toDigits 10 d.exact.coefficient).length ∧
      (Nat.toDigits 10 d.exact.coefficient).length ≤ 1384 := by
  have scaled := Nat.pow_le_pow_right Nat.two_pos (scale_le finite)
  have fives : 0 < 5 ^ 1074 := by decide +kernel
  rw [coefficient_exact]
  constructor
  · have least : 10 ^ 743 ≤ 5 ^ 1074 := by decide +kernel
    have one : 0 < d.significand * 2 ^ d.scale :=
      Nat.mul_pos (significand_pos nonzero) (Nat.two_pow_pos _)
    rw [← Nat.not_le, Nat.length_toDigits_le_iff (by decide) (by decide), Nat.not_lt]
    exact Nat.le_trans least (Nat.le_mul_of_pos_left _ one)
  · have most : 2 ^ 53 * 2 ^ 2045 * 5 ^ 1074 ≤ 10 ^ 1384 := by decide +kernel
    rw [Nat.length_toDigits_le_iff (by decide) (by decide)]
    refine Nat.lt_of_lt_of_le (Nat.mul_lt_mul_of_pos_right ?_ fives) most
    exact Nat.mul_lt_mul_of_lt_of_le d.significand_lt scaled (Nat.two_pow_pos _)

theorem roundDecimal_exact {d : Double} (nonzero : 0 < d.magnitude)
    (finite : d.magnitude < infiniteMagnitude) :
    roundDecimal d.exact.coefficient d.exact.exponent = d.magnitude := by
  obtain ⟨least, most⟩ := length_toDigits_exact nonzero finite
  have some : d.exact.coefficient ≠ 0 := by
    intro zero
    rw [zero, Nat.toDigits_zero] at least
    simp at least
  have exponent : d.exact.exponent = -1074 := rfl
  have whole : (-1074 : Int).toNat = 0 := rfl
  have places : (-(-1074) : Int).toNat = 1074 := rfl
  rw [roundDecimal, exponent, if_neg (by omega), if_neg (by omega), whole, places, Nat.pow_eq,
    Nat.pow_eq, pow_zero, Nat.mul_one, coefficient_exact,
    roundFraction_exact (significand_pos nonzero) d.significand_lt d.scale_eq_zero_or,
    ← d.magnitude_eq, Nat.min_eq_left (Nat.le_of_lt finite)]

/-- The decimal that is written has been tried, or is exact. -/
theorem roundDecimal_shortest {d : Double} (nonzero : 0 < d.magnitude)
    (finite : d.magnitude < infiniteMagnitude) :
    roundDecimal d.shortest.coefficient d.shortest.exponent = d.magnitude := by
  rw [shortest]
  cases found : (((List.range 24).map fun step : Nat => d.leadingExponent - step).flatMap
      d.neighbours).find? (readsBackAs d.magnitude) with
  | none => exact roundDecimal_exact nonzero finite
  | some decimal => simpa [readsBackAs] using List.find?_some found

/-! ## Decimals written out in full -/

theorem toDigits_mul_ten_pow {n : Nat} (positive : 0 < n) (places : Nat) :
    (Nat.toDigits 10 (10 ^ places * n)).length = (Nat.toDigits 10 n).length + places := by
  induction places with
  | zero => simp
  | succ places ih =>
      have more := Nat.toDigits_append_toDigits (b := 10) (n := 10 ^ places * n) (d := 0)
        (by decide) (Nat.mul_pos (ten_pow_pos places) positive) (by decide)
      rw [Nat.add_zero, ← Nat.mul_assoc, ← Nat.pow_succ'] at more
      rw [← more, List.length_append, ih, Nat.toDigits_zero]
      rfl

theorem roundDecimal_mul_ten_pow (coefficient places : Nat) :
    roundDecimal (10 ^ places * coefficient) 0 = roundDecimal coefficient places := by
  rcases Nat.eq_zero_or_pos coefficient with rfl | positive
  · simp [roundDecimal]
  · have nonzero : ¬ 10 ^ places * coefficient = 0 :=
      Nat.ne_of_gt (Nat.mul_pos (ten_pow_pos places) positive)
    have leading : (0 : Int) + (Nat.toDigits 10 (10 ^ places * coefficient)).length =
        places + (Nat.toDigits 10 coefficient).length := by
      rw [toDigits_mul_ten_pow positive]
      omega
    have value : 10 ^ places * coefficient * Nat.pow 10 (0 : Int).toNat =
        coefficient * Nat.pow 10 (places : Int).toNat := by
      simp [Nat.mul_comm]
    have whole : (-(0 : Int)).toNat = (-(places : Int)).toNat := by omega
    simp only [roundDecimal, nonzero, Nat.ne_of_gt positive, leading, value, whole]

theorem readMagnitude?_digits {digits : List Char} (all : ∀ c ∈ digits, c.isDigit = true)
    (some : digits ≠ []) :
    readMagnitude? digits = .some (roundDecimal (Nat.ofDigitChars 10 digits 0) 0) := by
  have taken : digits.takeWhile Char.isDigit = digits := List.takeWhile_eq_self_iff.mpr all
  have dropped : digits.dropWhile Char.isDigit = [] := List.dropWhile_eq_nil_iff.mpr all
  simp [readMagnitude?, taken, dropped, some, readExponent?]

theorem readMagnitude?_point {whole fraction : List Char} (front : ∀ c ∈ whole, c.isDigit = true)
    (back : ∀ c ∈ fraction, c.isDigit = true) (some : whole ≠ []) :
    readMagnitude? (whole ++ '.' :: fraction) =
      .some (roundDecimal (Nat.ofDigitChars 10 (whole ++ fraction) 0) (-fraction.length)) := by
  have point : Char.isDigit '.' = false := by decide
  have wholeTaken : (whole ++ '.' :: fraction).takeWhile Char.isDigit = whole := by
    simp [List.takeWhile_append_of_pos front, point]
  have wholeDropped : (whole ++ '.' :: fraction).dropWhile Char.isDigit = '.' :: fraction := by
    simp [List.dropWhile_append_of_pos front, point]
  have taken : fraction.takeWhile Char.isDigit = fraction := List.takeWhile_eq_self_iff.mpr back
  have dropped : fraction.dropWhile Char.isDigit = [] := List.dropWhile_eq_nil_iff.mpr back
  simp [readMagnitude?, wholeTaken, wholeDropped, taken, dropped, some, readExponent?]

theorem isDigit_of_mem_zeros {c : Char} {count : Nat} (member : c ∈ List.replicate count '0') :
    c.isDigit = true := by
  rw [List.eq_of_mem_replicate member]
  rfl

/-- A decimal written out in full is read as the decimal it was. -/
theorem readMagnitude?_positional (decimal : Decimal) :
    readMagnitude? decimal.positional =
      some (roundDecimal decimal.coefficient decimal.exponent) := by
  obtain ⟨coefficient, exponent⟩ := decimal
  have digits : ∀ c ∈ Nat.toDigits 10 coefficient, c.isDigit = true :=
    fun _ member => Text.isDigit_of_mem_toDigits member
  have zeros : ∀ count, ∀ c ∈ List.replicate count '0', c.isDigit = true :=
    fun _ _ member => isDigit_of_mem_zeros member
  simp only [Decimal.positional]
  split
  · rename_i whole
    obtain ⟨places, rfl⟩ := Int.eq_ofNat_of_zero_le whole
    rw [readMagnitude?_digits (List.forall_mem_append.mpr ⟨digits, zeros _⟩) (by simp),
      Nat.ofDigitChars_append, Nat.ofDigitChars_ten_toDigits, Nat.ofDigitChars_replicate_zero]
    exact congrArg some (roundDecimal_mul_ten_pow coefficient places)
  · rename_i negative
    split
    · rename_i short
      -- The point stands inside the digits.
      rw [readMagnitude?_point (fun c member => digits c (List.mem_of_mem_take member))
        (fun c member => digits c (List.mem_of_mem_drop member)) (by simp; omega),
        List.take_append_drop, Nat.ofDigitChars_ten_toDigits, List.length_drop]
      congr 2
      omega
    · rename_i long
      -- Zeros fill the places between the point and the digits.
      have fraction := List.forall_mem_append.mpr
        ⟨zeros ((-exponent).toNat - (Nat.toDigits 10 coefficient).length), digits⟩
      have first : ∀ c ∈ ['0'], c.isDigit = true := by simp
      have written := readMagnitude?_point first fraction (List.cons_ne_nil _ _)
      rw [List.singleton_append] at written
      have zero : Nat.ofDigitChars 10 ['0'] 0 = 0 := by decide
      rw [written, Nat.ofDigitChars_append, Nat.ofDigitChars_append, zero,
        Nat.ofDigitChars_replicate_zero, Nat.mul_zero, Nat.ofDigitChars_ten_toDigits,
        List.length_append, List.length_replicate]
      congr 2
      omega

/-! ## Texts -/

theorem positional_eq_cons (decimal : Decimal) :
    ∃ first rest, decimal.positional = first :: rest ∧ first.isDigit = true := by
  obtain ⟨first, rest, digits, digit⟩ := Text.toDigits_eq_cons decimal.coefficient
  simp only [Decimal.positional, digits]
  split
  · exact ⟨first, _, rfl, digit⟩
  · split
    · rename_i short
      obtain ⟨count, more⟩ := Nat.exists_eq_succ_of_ne_zero (Nat.sub_ne_zero_of_lt short)
      rw [more]
      exact ⟨first, _, rfl, digit⟩
    · exact ⟨'0', _, rfl, rfl⟩

theorem toLower_of_isDigit {c : Char} (digit : c.isDigit = true) : c.toLower = c := by
  simp only [Char.isDigit, Bool.and_eq_true, decide_eq_true_eq] at digit
  have upper : ¬ (c.val ≥ 'A'.val ∧ c.val ≤ 'Z'.val) := by
    intro letter
    exact absurd (UInt32.le_trans letter.1 digit.2) (by decide)
  exact dif_neg upper

/-- A number that begins with a digit is no name. -/
theorem readUnsigned?_of_isDigit {first : Char} (digit : first.isDigit = true) (negative : Bool)
    (rest : List Char) :
    readUnsigned? negative (first :: rest) =
      (readMagnitude? (first :: rest)).map (ofMagnitude negative) := by
  have other : ∀ (c : Char) (name : List Char), c.isDigit = false →
      String.ofList ((first :: rest).map Char.toLower) ≠ String.ofList (c :: name) := by
    intro c name letter same
    rw [String.ofList_inj, List.map_cons, toLower_of_isDigit digit] at same
    cases same
    rw [digit] at letter
    cases letter
  have infinity := other 'i' ['n', 'f'] rfl
  have infinityInFull := other 'i' ['n', 'f', 'i', 'n', 'i', 't', 'y'] rfl
  have notANumber := other 'n' ['a', 'n'] rfl
  simp only [readUnsigned?]
  rw [if_neg (not_or.mpr ⟨infinity, infinityInFull⟩), if_neg notANumber]

theorem read?_of_isDigit {first : Char} (digit : first.isDigit = true) (rest : List Char) :
    read? (first :: rest) = readUnsigned? false (first :: rest) := by
  unfold read?
  split
  · rename_i same
    cases same
    cases digit
  · rename_i same
    cases same
    cases digit
  · rfl

theorem readUnsigned?_positional (negative : Bool) (decimal : Decimal) :
    readUnsigned? negative decimal.positional =
      some (ofMagnitude negative (roundDecimal decimal.coefficient decimal.exponent)) := by
  obtain ⟨first, rest, digits, digit⟩ := positional_eq_cons decimal
  rw [digits, readUnsigned?_of_isDigit digit, ← digits, readMagnitude?_positional]
  rfl

theorem readUnsigned?_unsignedText {d : Double} (number : d.isNaN = false) (negative : Bool) :
    readUnsigned? negative d.unsignedText = some (ofMagnitude negative d.magnitude) := by
  rw [unsignedText]
  by_cases infinite : d.isInfinite
  · have name : String.ofList (['i', 'n', 'f'].map Char.toLower) = "inf" := rfl
    rw [if_pos infinite, of_decide_eq_true infinite]
    simp only [readUnsigned?, if_pos (Or.inl name)]
  rw [if_neg infinite]
  by_cases zero : d.isZero
  · have one : readMagnitude? ['0'] = some 0 := by decide
    rw [if_pos zero, of_decide_eq_true zero, readUnsigned?_of_isDigit rfl, one]
    rfl
  · have nonzero : 0 < d.magnitude := Nat.pos_of_ne_zero (by simpa [isZero] using zero)
    have finite : d.magnitude < infiniteMagnitude := by
      have below : ¬ infiniteMagnitude < d.magnitude := by simpa [isNaN] using number
      have apart : d.magnitude ≠ infiniteMagnitude := by simpa [isInfinite] using infinite
      omega
    rw [if_neg zero, readUnsigned?_positional, roundDecimal_shortest nonzero finite]

theorem read?_unsignedText (d : Double) :
    read? d.unsignedText = readUnsigned? false d.unsignedText := by
  rw [unsignedText]
  split
  · rfl
  · split
    · exact read?_of_isDigit rfl []
    · obtain ⟨first, rest, digits, digit⟩ := positional_eq_cons d.shortest
      rw [digits, read?_of_isDigit digit]

/-- A double that is a number reads back from its text, bit for bit. -/
theorem read?_text {d : Double} (number : d.isNaN = false) : read? d.text = some d := by
  rw [text, if_neg (by simp [number])]
  by_cases negative : d.isNegative
  · rw [if_pos negative, read?, readUnsigned?_unsignedText number, ← negative,
      ofMagnitude_magnitude]
  · have positive : d.isNegative = false := by simpa using negative
    rw [if_neg negative, read?_unsignedText, readUnsigned?_unsignedText number, ← positive,
      ofMagnitude_magnitude]

/-! ## The characters of a text -/

theorem mem_positional {decimal : Decimal} {c : Char} (member : c ∈ decimal.positional) :
    c.isDigit = true ∨ c = '.' := by
  have digits : c ∈ Nat.toDigits 10 decimal.coefficient → c.isDigit = true :=
    Text.isDigit_of_mem_toDigits
  simp only [Decimal.positional] at member
  split at member
  · rcases List.mem_append.mp member with front | back
    · exact .inl (digits front)
    · exact .inl (isDigit_of_mem_zeros back)
  · split at member
    · rcases List.mem_append.mp member with front | back
      · exact .inl (digits (List.mem_of_mem_take front))
      · rcases List.mem_cons.mp back with point | back
        · exact .inr point
        · exact .inl (digits (List.mem_of_mem_drop back))
    · simp only [List.mem_cons, List.mem_append] at member
      rcases member with rfl | point | zeros | back
      · exact .inl rfl
      · exact .inr point
      · exact .inl (isDigit_of_mem_zeros zeros)
      · exact .inl (digits back)

theorem mem_unsignedText {d : Double} {c : Char} (member : c ∈ d.unsignedText) :
    c.isDigit = true ∨ c ∈ ['.', 'i', 'n', 'f'] := by
  rw [unsignedText] at member
  split at member
  · exact .inr (List.mem_cons_of_mem _ member)
  · split at member
    · rw [List.mem_singleton.mp member]
      exact .inl rfl
    · rcases mem_positional member with digit | rfl
      · exact .inl digit
      · exact .inr (List.mem_cons_self ..)

theorem mem_text {d : Double} {c : Char} (member : c ∈ d.text) :
    c.isDigit = true ∨ c ∈ ['-', '.', 'i', 'n', 'f', 'N', 'a'] := by
  rw [text] at member
  split at member
  · right
    simp only [List.mem_cons, List.not_mem_nil, or_false] at member
    rcases member with rfl | rfl | rfl
    all_goals decide
  · have widen : c.isDigit = true ∨ c ∈ ['.', 'i', 'n', 'f'] →
        c.isDigit = true ∨ c ∈ ['-', '.', 'i', 'n', 'f', 'N', 'a'] := by
      rintro (digit | letter)
      · exact .inl digit
      · exact .inr (List.mem_cons_of_mem _ (List.mem_append_left ['N', 'a'] letter))
    split at member
    · rcases List.mem_cons.mp member with rfl | member
      · exact .inr (List.mem_cons_self ..)
      · exact widen (mem_unsignedText member)
    · exact widen (mem_unsignedText member)

end RegisterMachine.Double
