import RegisterMachine.Image.Wire

/-!
What is written is read back.

`Reads read bytes value` says that the bytes end where the reader stops: it takes exactly them from
the front of any input, and no part of them satisfies it. The relation composes along a reader, so
each format below is one chain of smaller ones.
-/
set_option autoImplicit false

namespace RegisterMachine.Wire

/-- The reader gives `value` for exactly these bytes, whatever follows, and asks for more if they
are cut short. -/
structure Reads {α : Type} (read : Reader α) (bytes : List UInt8) (value : α) : Prop where
  whole : ∀ rest, read (bytes ++ rest) = .ok (value, rest)
  cut : ∀ short, short <+: bytes → short ≠ bytes → read short = .error .unexpectedEnd

namespace Reads

variable {α β : Type} {read : Reader α} {bytes more : List UInt8} {value : α}

theorem pure (value : α) : Reads (Pure.pure value) [] value where
  whole _ := rfl
  cut _ before differs := absurd (List.prefix_nil.mp before) differs

theorem bind {next : α → Reader β} {result : β} (first : Reads read bytes value)
    (second : Reads (next value) more result) :
    Reads (read >>= next) (bytes ++ more) result where
  whole rest := by
    rw [List.append_assoc]
    change (read (bytes ++ (more ++ rest)) >>= fun taken => next taken.1 taken.2) = _
    rw [first.whole]
    exact second.whole rest
  cut short before differs := by
    change (read short >>= fun taken => next taken.1 taken.2) = _
    rcases List.prefix_or_prefix_of_prefix before (List.prefix_append bytes more) with
      inside | beyond
    · by_cases all : short = bytes
      · -- Everything the first reader needs is there, and nothing of the second.
        subst all
        have missing : ([] : List UInt8) ≠ more := by
          rintro rfl
          exact differs (by simp)
        have taken := first.whole []
        rw [List.append_nil] at taken
        rw [taken]
        exact second.cut [] List.nil_prefix missing
      · rw [first.cut short inside all]
        rfl
    · obtain ⟨left, rfl⟩ := beyond
      rw [first.whole]
      refine second.cut left ((List.prefix_append_right_inj bytes).mp before) ?_
      rintro rfl
      exact differs rfl

/-- A reader that goes on without taking further bytes. -/
theorem bind_pure {next : α → Reader β} {result : β} (first : Reads read bytes value)
    (done : next value = Pure.pure result) : Reads (read >>= next) bytes result := by
  have second : Reads (next value) [] result := done ▸ Reads.pure result
  have both := first.bind second
  rwa [List.append_nil] at both

theorem map (first : Reads read bytes value) (f : α → β) :
    Reads (do return f (← read)) bytes (f value) :=
  first.bind_pure rfl

end Reads

/-! ## Numbers -/

theorem reads_byte (byte : UInt8) : Reads readByte [byte] byte where
  whole _ := rfl
  cut short before differs := by
    have shorter : short.length ≠ 1 := fun same => differs (before.eq_of_length same)
    have bound := before.length_le
    cases short with
    | nil => rfl
    | cons first rest =>
        simp only [List.length_cons, List.length_nil] at shorter bound
        omega

theorem toNat_byte {n : Nat} (small : n < 256) : (UInt8.ofNat n).toNat = n :=
  UInt8.toNat_ofNat_of_lt' small

/-- One more than the largest number of this width. -/
def Width.bound (width : Width) : Nat :=
  Nat.pow 128 width.groups * Nat.pow 2 width.last

theorem reads_writeGroups {last : Nat} (short : Nat.pow 2 last ≤ 128) {groups n : Nat}
    (fits : n < Nat.pow 128 groups * Nat.pow 2 last) :
    Reads (readGroups last groups) (writeGroups groups n) n := by
  induction groups generalizing n with
  | zero =>
      have small : n < Nat.pow 2 last := by simpa using fits
      refine (reads_byte (UInt8.ofNat n)).bind_pure ?_
      rw [toNat_byte (by omega), if_pos small]
  | succ groups ih =>
      rw [writeGroups]
      split
      · refine (reads_byte (UInt8.ofNat n)).bind_pure ?_
        rw [toNat_byte (by omega), if_pos ‹n < 128›]
      · have higher : n / 128 < Nat.pow 128 groups * Nat.pow 2 last := by
          refine Nat.div_lt_of_lt_mul ?_
          calc n < Nat.pow 128 groups * 128 * Nat.pow 2 last := fits
            _ = 128 * (Nat.pow 128 groups * Nat.pow 2 last) := by
              rw [Nat.mul_comm (Nat.pow 128 groups), Nat.mul_assoc]
        refine (reads_byte _).bind ?_
        rw [toNat_byte (by omega), if_neg (by omega)]
        refine (ih higher).bind_pure ?_
        rw [show n % 128 + 128 - 128 + 128 * (n / 128) = n by omega]

theorem reads_writeNumber {width : Width} (short : Nat.pow 2 width.last ≤ 128) {n : Nat}
    (fits : n < width.bound) : Reads (readNumber width) (writeNumber width n) n :=
  reads_writeGroups short fits

theorem reads_number16 {n : Nat} (fits : n < UInt16.size) :
    Reads (readNumber .bits16) (writeNumber .bits16 n) n :=
  reads_writeNumber (by decide) fits

theorem reads_number32 {n : Nat} (fits : n < UInt32.size) :
    Reads (readNumber .bits32) (writeNumber .bits32 n) n :=
  reads_writeNumber (by decide) fits

theorem reads_number64 {n : Nat} (fits : n < UInt64.size) :
    Reads (readNumber .bits64) (writeNumber .bits64 n) n :=
  reads_writeNumber (by decide) fits

theorem unzigzag_zigzag (n : Int) : unzigzag (zigzag n) = n := by
  cases n with
  | ofNat n => simp [zigzag, unzigzag]
  | negSucc n =>
      have odd : (2 * n + 1) % 2 = 1 := by omega
      have half : (2 * n + 1) / 2 = n := by omega
      simp [zigzag, unzigzag, odd, half]

theorem zigzag_toInt_lt (n : Int32) : zigzag n.toInt < UInt32.size := by
  have above := n.toInt_lt
  have below := n.le_toInt
  simp only [UInt32.size]
  cases same : n.toInt with
  | ofNat m =>
      rw [same, Int.ofNat_eq_natCast] at above
      simp only [zigzag]
      omega
  | negSucc m =>
      rw [same] at below
      simp only [zigzag]
      omega

theorem reads_writeInt32 (n : Int32) : Reads readInt32 (writeInt32 n) n := by
  have number := (reads_number32 (zigzag_toInt_lt n)).map fun m => Int32.ofInt (unzigzag m)
  rwa [unzigzag_zigzag, Int32.ofInt_toInt] at number

theorem reads_writeBytes {count n : Nat} (fits : n < Nat.pow 256 count) :
    Reads (readBytes count) (writeBytes count n) n := by
  induction count generalizing n with
  | zero =>
      have none : n = 0 := by simpa using fits
      rw [none]
      exact .pure 0
  | succ count ih =>
      have higher : n / 256 < Nat.pow 256 count := by
        refine Nat.div_lt_of_lt_mul ?_
        calc n < Nat.pow 256 count * 256 := fits
          _ = 256 * Nat.pow 256 count := Nat.mul_comm _ _
      refine (reads_byte _).bind ((ih higher).bind_pure ?_)
      rw [toNat_byte (by omega), show n % 256 + 256 * (n / 256) = n by omega]

theorem reads_writeBool (value : Bool) : Reads readBool (writeBool value) value := by
  cases value <;> exact (reads_byte _).bind_pure rfl

/-! ## Options, sequences and texts -/

section

variable {α : Type} {read : Reader α} {write : α → List UInt8}

theorem reads_writeOption {value : Option α}
    (each : ∀ inner ∈ value, Reads read (write inner) inner) :
    Reads (readOption read) (writeOption write value) value := by
  cases value with
  | none => exact (reads_byte 0).bind_pure rfl
  | some inner =>
      have rest := (each inner rfl).map some
      exact (reads_byte 1).bind rest

theorem reads_flatMap {values : List α} (each : ∀ value ∈ values, Reads read (write value) value) :
    Reads (readMany read values.length) (values.flatMap write) values := by
  induction values with
  | nil => exact .pure []
  | cons first rest ih =>
      rw [List.flatMap_cons]
      have others := ih fun value member => each value (List.mem_cons_of_mem first member)
      exact (each first List.mem_cons_self).bind (others.map (first :: ·))

theorem reads_writeList {values : List α} (countable : values.length < UInt64.size)
    (each : ∀ value ∈ values, Reads read (write value) value) :
    Reads (readList read) (writeList write values) values :=
  (reads_number64 countable).bind (reads_flatMap each)

end

theorem reads_take (bytes : List UInt8) : Reads (take bytes.length) bytes bytes where
  whole rest := by
    have enough : ¬ (bytes ++ rest).length < bytes.length := by simp
    simp only [take, if_neg enough, List.take_left, List.drop_left]
  cut short before differs := by
    have shorter : short.length < bytes.length :=
      Nat.lt_of_le_of_ne before.length_le fun same => differs (before.eq_of_length same)
    simp only [take, if_pos shorter]

theorem toList_loop_eq_drop (bytes : ByteArray) (index : Nat) (found : List UInt8) :
    ByteArray.toList.loop bytes index found = found.reverse ++ bytes.data.toList.drop index := by
  induction index, found using ByteArray.toList.loop.induct bytes with
  | case1 index found inside ih =>
      have here : index < bytes.data.toList.length := by simpa using inside
      have byte : bytes.get! index = bytes.data.toList[index] := by
        simp [ByteArray.get!, getElem!_pos bytes.data index (by simpa using inside)]
      rw [ByteArray.toList.loop, if_pos inside, ih, byte, List.reverse_cons, List.append_assoc,
        List.drop_eq_getElem_cons here]
      rfl
  | case2 index found outside =>
      have past : bytes.data.toList.length ≤ index := by simpa using Nat.le_of_not_lt outside
      rw [ByteArray.toList.loop, if_neg outside, List.drop_eq_nil_of_le past, List.append_nil]

theorem toByteArray_toList (bytes : ByteArray) : bytes.toList.toByteArray = bytes := by
  have same : bytes.toList = bytes.data.toList := by
    simp [ByteArray.toList, toList_loop_eq_drop]
  apply ByteArray.ext
  rw [List.data_toByteArray, same, Array.toArray_toList]

theorem length_toList (bytes : ByteArray) : bytes.toList.length = bytes.size := by
  rw [← List.size_toByteArray, toByteArray_toList]

theorem reads_writeString {text : String} (countable : text.utf8ByteSize < UInt64.size) :
    Reads readString (writeString text) text := by
  have bytes := reads_take text.toByteArray.toList
  rw [length_toList] at bytes
  refine (reads_number64 countable).bind (bytes.bind_pure ?_)
  have valid : String.fromUTF8? text.toByteArray = some text := dif_pos text.isValidUTF8
  rw [toByteArray_toList, valid]

end RegisterMachine.Wire
