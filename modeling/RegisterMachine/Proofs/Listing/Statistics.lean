import Mathlib.Algebra.BigOperators.Group.List.Lemmas
import Mathlib.Algebra.GroupWithZero.Nat
import Mathlib.Data.List.Dedup
import Mathlib.Data.String.Basic
import RegisterMachine.Proofs.Listing.Traversal

/-!
How often each opcode occurs in a function and everything it calls.

Counting goes from instruction to instruction, in a table from opcodes to numbers. The order of the
table's entries has no part in the result: the entries are put in an order in which no two of them
are level, so there is one way to write them down.
-/
set_option autoImplicit false

namespace RegisterMachine.Listing

/-! ## Counting -/

/-- These entries say how often each opcode occurs. -/
structure Tally (opcodes : List Opcode) (entries : List (Opcode × Nat)) : Prop where
  unique : (entries.map Prod.fst).Nodup
  covers : ∀ opcode, opcode ∈ entries.map Prod.fst ↔ opcode ∈ opcodes
  counts : ∀ entry ∈ entries, entry.2 = opcodes.count entry.1

namespace Tally

variable {opcodes : List Opcode} {entries others : List (Opcode × Nat)}

theorem mem_iff (counted : Tally opcodes entries) {opcode : Opcode} {count : Nat} :
    (opcode, count) ∈ entries ↔ opcode ∈ opcodes ∧ count = opcodes.count opcode := by
  constructor
  · intro member
    refine ⟨(counted.covers opcode).mp ?_, counted.counts _ member⟩
    exact List.mem_map.mpr ⟨(opcode, count), member, rfl⟩
  · rintro ⟨occurs, rfl⟩
    obtain ⟨⟨_, count⟩, member, rfl⟩ := List.mem_map.mp ((counted.covers opcode).mpr occurs)
    exact counted.counts _ member ▸ member

theorem of_perm (counted : Tally opcodes entries) (rearranged : others.Perm entries) :
    Tally opcodes others where
  unique := ((rearranged.map _).nodup_iff).mpr counted.unique
  covers := by
    intro opcode
    rw [(rearranged.map _).mem_iff, counted.covers]
  counts := by
    intro entry member
    exact counted.counts entry (rearranged.mem_iff.mp member)

theorem countOne (counted : Tally opcodes entries) (opcode : Opcode) :
    Tally (opcodes ++ [opcode]) (countOne entries opcode) := by
  have known := counted.covers opcode
  unfold Listing.countOne
  split
  · rename_i found
    rw [known] at found
    refine ⟨?_, ?_, ?_⟩
    · simpa [List.map_map, Function.comp_def] using counted.unique
    · intro other
      have same := counted.covers other
      simp only [List.map_map, Function.comp_def, List.mem_append, List.mem_singleton] at same ⊢
      rw [same]
      constructor
      · exact .inl
      · rintro (occurs | rfl)
        · exact occurs
        · exact found
    · intro entry member
      obtain ⟨old, listed, rfl⟩ := List.mem_map.mp member
      rw [List.count_append, List.count_singleton, ← counted.counts old listed]
      by_cases same : old.1 = opcode
      · simp [same]
      · simp [same, Ne.symm same]
  · rename_i missing
    refine ⟨?_, ?_, ?_⟩
    · rw [List.map_append, List.map_singleton, List.nodup_append]
      refine ⟨counted.unique, by simp, ?_⟩
      rintro other listed _ last rfl
      rw [List.mem_singleton.mp last] at listed
      exact missing listed
    · intro other
      rw [List.map_append, List.mem_append, counted.covers, List.mem_append]
      simp
    · intro entry member
      rcases List.mem_append.mp member with listed | last
      · have other : entry.1 ≠ opcode := by
          rintro rfl
          exact missing (List.mem_map.mpr ⟨entry, listed, rfl⟩)
        rw [List.count_append, counted.counts entry listed]
        simp [other.symm]
      · rw [List.mem_singleton.mp last]
        rw [known] at missing
        simp [List.count_append, List.count_eq_zero_of_not_mem missing]

theorem foldl (counted : Tally opcodes entries) (more : List Opcode) :
    Tally (opcodes ++ more) (more.foldl Listing.countOne entries) := by
  induction more generalizing opcodes entries with
  | nil => simpa using counted
  | cons opcode more ih => simpa using ih (counted.countOne opcode)

/-- The counts add up to the number of occurrences. -/
theorem sum_counts (counted : Tally opcodes entries) :
    (entries.map Prod.snd).sum = opcodes.length := by
  have columns : entries.map Prod.snd = (entries.map Prod.fst).map (opcodes.count ·) := by
    rw [List.map_map]
    exact List.map_congr_left counted.counts
  have keys : (entries.map Prod.fst).Perm opcodes.dedup := by
    rw [List.perm_ext_iff_of_nodup counted.unique (List.nodup_dedup opcodes)]
    intro opcode
    rw [counted.covers, List.mem_dedup]
  rw [columns, (keys.map _).sum_eq, List.sum_map_count_dedup_eq_length]

end Tally

theorem tally_counts (opcodes : List Opcode) : Tally opcodes (tally opcodes) := by
  have nothing : Tally [] [] := ⟨by simp, by simp, by simp⟩
  simpa [tally] using nothing.foldl opcodes

/-! ## The order of counts -/

theorem mnemonic_injective {a b : Opcode} (same : a.mnemonic = b.mnemonic) : a = b := by
  have apart : ∀ a ∈ Opcode.all, ∀ b ∈ Opcode.all, a.mnemonic = b.mnemonic → a = b := by decide
  exact apart a a.mem_all b b.mem_all same

theorem precedes_iff {a b : Opcode × Nat} :
    precedes a b = true ↔ b.2 < a.2 ∨ a.2 = b.2 ∧ a.1.mnemonic ≤ b.1.mnemonic := by
  simp [precedes]

theorem precedes_trans (a b c : Opcode × Nat) :
    precedes a b = true → precedes b c = true → precedes a c = true := by
  rw [precedes_iff, precedes_iff, precedes_iff]
  intro first second
  rcases first with more | ⟨level, before⟩
  · rcases second with more' | ⟨level', -⟩
    · exact .inl (more'.trans more)
    · exact .inl (level' ▸ more)
  · rcases second with more' | ⟨level', before'⟩
    · exact .inl (level ▸ more')
    · exact .inr ⟨level.trans level', String.le_trans before before'⟩

theorem precedes_total (a b : Opcode × Nat) : (precedes a b || precedes b a) = true := by
  rw [Bool.or_eq_true, precedes_iff, precedes_iff]
  rcases Nat.lt_trichotomy a.2 b.2 with less | level | more
  · exact .inr (.inl less)
  · rcases String.le_total a.1.mnemonic b.1.mnemonic with before | after
    · exact .inl (.inr ⟨level, before⟩)
    · exact .inr (.inr ⟨level.symm, after⟩)
  · exact .inl (.inl more)

/-- No two entries are level, since opcodes have different mnemonics. -/
theorem precedes_antisymm {a b : Opcode × Nat} (first : precedes a b = true)
    (second : precedes b a = true) : a = b := by
  rw [precedes_iff] at first second
  obtain ⟨level, before⟩ : a.2 = b.2 ∧ a.1.mnemonic ≤ b.1.mnemonic := by
    rcases first with more | level
    · omega
    · exact level
  obtain ⟨-, after⟩ : b.2 = a.2 ∧ b.1.mnemonic ≤ a.1.mnemonic := by
    rcases second with more | level
    · omega
    · exact level
  exact Prod.ext (mnemonic_injective (String.le_antisymm before after)) level

theorem pairwise_sorted (entries : List (Opcode × Nat)) :
    (entries.mergeSort precedes).Pairwise fun a b => precedes a b = true :=
  List.pairwise_mergeSort precedes_trans precedes_total entries

/-- Entries are sorted to the same list whatever their order. -/
theorem mergeSort_eq_of_perm {entries others : List (Opcode × Nat)} (same : entries.Perm others) :
    entries.mergeSort precedes = others.mergeSort precedes := by
  refine List.Perm.eq_of_pairwise ?_ (pairwise_sorted entries) (pairwise_sorted others) ?_
  · exact fun a b _ _ first second => precedes_antisymm first second
  · exact (List.mergeSort_perm _ _).trans (same.trans (List.mergeSort_perm _ _).symm)

/-! ## The counts of a function -/

/-- How often an opcode occurs in the functions that a listing shows. -/
def occurrences (function : Function) (opcode : Opcode) : Nat :=
  ((sections function).map fun shown =>
    shown.2.code.countP fun instruction => instruction.opcode = opcode).sum

theorem count_shownOpcodes (function : Function) (opcode : Opcode) :
    (shownOpcodes function).count opcode = occurrences function opcode := by
  rw [shownOpcodes, List.count_eq_countP, List.countP_map, List.countP_flatMap]
  rfl

theorem length_shownOpcodes (function : Function) :
    (shownOpcodes function).length =
      ((sections function).map fun shown => shown.2.code.length).sum := by
  rw [shownOpcodes, List.length_map, List.length_flatMap]

theorem tally_opcodeCounts (function : Function) :
    Tally (shownOpcodes function) (opcodeCounts function) :=
  (tally_counts _).of_perm (List.mergeSort_perm _ _)

/-- Each function that a listing shows is counted once. The counts name every opcode that occurs,
once and with the number of its occurrences, and no other one. Larger counts come first, and
equal ones follow their mnemonics. They are what sorting gives in whatever order the entries come
that were counted one by one, and they add up to the number of all instructions. -/
theorem opcodeCounts_exact (function : Function) :
    ((sections function).map Prod.fst).Nodup ∧
    ((opcodeCounts function).map Prod.fst).Nodup ∧
    (∀ opcode count, (opcode, count) ∈ opcodeCounts function ↔
      0 < count ∧ count = occurrences function opcode) ∧
    ((opcodeCounts function).Pairwise fun a b =>
      b.2 < a.2 ∨ a.2 = b.2 ∧ a.1.mnemonic < b.1.mnemonic) ∧
    (∀ entries : List (Opcode × Nat), entries.Perm (tally (shownOpcodes function)) →
      entries.mergeSort precedes = opcodeCounts function) ∧
    ((opcodeCounts function).map Prod.snd).sum =
      ((sections function).map fun shown => shown.2.code.length).sum := by
  have counted := tally_opcodeCounts function
  refine ⟨?_, counted.unique, ?_, ?_, ?_, ?_⟩
  · have covered := congrArg (List.map Prod.fst) (sections_eq function)
    simp only [List.map_map, Function.comp_def, List.map_id'] at covered
    exact covered ▸ (breadthFirst_discover function).unique
  · intro opcode count
    rw [counted.mem_iff, ← count_shownOpcodes, ← List.count_pos_iff]
    constructor
    · rintro ⟨occurs, rfl⟩
      exact ⟨occurs, rfl⟩
    · rintro ⟨occurs, rfl⟩
      exact ⟨occurs, rfl⟩
  · -- Entries with different opcodes are never level.
    have apart : (opcodeCounts function).Pairwise fun a b => a.1 ≠ b.1 :=
      List.pairwise_map.mp counted.unique
    refine (pairwise_sorted _).imp₂ ?_ apart
    intro a b before differ
    rcases precedes_iff.mp before with more | ⟨level, before⟩
    · exact .inl more
    · exact .inr ⟨level, lt_of_le_of_ne before fun same => differ (mnemonic_injective same)⟩
  · intro entries rearranged
    exact mergeSort_eq_of_perm rearranged
  · rw [counted.sum_counts, length_shownOpcodes]

/-- A function that calls another one twice. -/
def twiceCalling : Function :=
  ⟨⟨0, 0⟩,
    ⟨[⟨some "twice", 0, 3, some [.constantInt32 0 1, .call 1 ⟨1⟩ [0], .call 2 ⟨1⟩ [0], .leave 2]⟩,
      ⟨some "once", 1, 1, some [.constantInt32 1 8, .leave 1]⟩]⟩,
    ⟨0⟩, by simp [FuncId.index]⟩

theorem opcodeCounts_exact_twiceCalling :
    tally (shownOpcodes twiceCalling) =
        [(.constant (.only .int32), 2), (.call, 2), (.leave, 2)] ∧
      opcodeCounts twiceCalling = [(.call, 2), (.constant (.only .int32), 2), (.leave, 2)] := by
  have covered : twiceCalling.module.discover ⟨0⟩ = [⟨0⟩, ⟨1⟩] :=
    (Module.discover_eq_survey (has_entry twiceCalling)).trans (by cbv)
  have sections : sections twiceCalling =
      [⟨0⟩, ⟨1⟩].filterMap fun id => (twiceCalling.module.get? id).map fun shown => (id, shown) :=
    congrArg _ covered
  have counted : tally (shownOpcodes twiceCalling) =
      [(.constant (.only .int32), 2), (.call, 2), (.leave, 2)] := by
    rw [shownOpcodes, sections]
    decide
  let sorted : List (Opcode × Nat) := [(.call, 2), (.constant (.only .int32), 2), (.leave, 2)]
  have rearranged : sorted.Perm (tally (shownOpcodes twiceCalling)) := by
    rw [counted]
    decide
  have already : sorted.mergeSort precedes = sorted := List.mergeSort_of_pairwise (by decide)
  have listed := (opcodeCounts_exact twiceCalling).2.2.2.2.1 sorted rearranged
  exact ⟨counted, listed.symm.trans already⟩

end RegisterMachine.Listing
