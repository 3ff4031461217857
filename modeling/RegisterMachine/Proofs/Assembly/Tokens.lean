import Mathlib.Data.List.Forall2
import RegisterMachine.Proofs.Machine.Plan

/-!
How a text is assembled, token by token.

A text falls into tokens at its bars, and every token is assembled on its own. The code is made of
the tokens' instructions, in order; the error is that of the first token that stands for none, at
the byte where the token begins. So of two texts that are joined by a bar, the second is assembled
behind the first as it is assembled alone.
-/
set_option autoImplicit false

namespace RegisterMachine

/-- The same error in a text that begins `bytes` earlier. -/
def AssemblyError.shift (error : AssemblyError) (bytes : Nat) : AssemblyError :=
  { error with position := error.position + bytes }

namespace Assembly

/-! ## Bars -/

/-- The text of tokens that have a bar behind them. -/
def barred (tokens : List (List Char)) : List Char :=
  tokens.flatMap (· ++ ['|'])

theorem barred_cons (token : List Char) (rest : List (List Char)) :
    barred (token :: rest) = token ++ '|' :: barred rest := by
  simp [barred]

theorem barred_append (front back : List (List Char)) :
    barred (front ++ back) = barred front ++ barred back := by
  simp [barred]

theorem barred_eq_intercalate {tokens : List (List Char)} (some : tokens ≠ []) :
    barred tokens = ['|'].intercalate tokens ++ ['|'] := by
  induction tokens with
  | nil => contradiction
  | cons token rest ih =>
      cases rest with
      | nil => simp [barred]
      | cons next rest =>
          rw [barred_cons, ih (by simp), List.intercalate_cons_cons]
          simp

theorem barred_splitOn (text : List Char) : barred (text.splitOn '|') = text ++ ['|'] := by
  rw [barred_eq_intercalate (List.splitOn_ne_nil _ _), List.intercalate_splitOn]

/-- The bytes of tokens that have a bar behind them. -/
def extent (tokens : List (List Char)) : Nat :=
  (String.ofList (barred tokens)).utf8ByteSize

theorem utf8ByteSize_bar : (String.ofList ['|']).utf8ByteSize = 1 := by
  decide

theorem extent_cons (token : List Char) (rest : List (List Char)) :
    extent (token :: rest) = (String.ofList token).utf8ByteSize + 1 + extent rest := by
  rw [extent, barred_cons, List.append_cons, String.ofList_append, String.ofList_append,
    String.utf8ByteSize_append, String.utf8ByteSize_append, utf8ByteSize_bar]
  rfl

theorem extent_splitOn (text : String) :
    extent (text.toList.splitOn '|') = text.utf8ByteSize + 1 := by
  rw [extent, barred_splitOn, String.ofList_append, String.utf8ByteSize_append,
    String.ofList_toList, utf8ByteSize_bar]

theorem splitOn_joined (first second : String) :
    (first ++ "|" ++ second).toList.splitOn '|' =
      first.toList.splitOn '|' ++ second.toList.splitOn '|' := by
  have bar : "|".toList = ['|'] := rfl
  rw [String.toList_append, String.toList_append, bar, List.append_assoc, List.singleton_append,
    List.splitOn_append_cons_self]

end Assembly

namespace Scope

open Assembly

variable {scope : Scope} {position : Nat} {tokens front back : List (List Char)}
  {code : List Instruction} {error : AssemblyError}

theorem assemble_of_ne_empty {source : String} (text : source ≠ "") :
    scope.assemble source = scope.assembleTokens 0 (source.toList.splitOn '|') := by
  unfold assemble
  split
  · rename_i empty
    exact absurd (String.toList_eq_nil_iff.mp empty) text
  · rfl

/-! ## One token after the other -/

theorem assembleTokens_of_ok {token : List Char} {instruction : Instruction}
    (assembled : scope.assembleToken token = .ok instruction) :
    scope.assembleTokens position (token :: tokens) = do
      let code ← scope.assembleTokens (position + (String.ofList token).utf8ByteSize + 1) tokens
      return instruction :: code := by
  simp only [assembleTokens, assembled]

theorem assembleTokens_of_error {token : List Char} {cause : AssemblyCause}
    (refused : scope.assembleToken token = .error cause) :
    scope.assembleTokens position (token :: tokens) = .error ⟨position, cause⟩ := by
  simp only [assembleTokens, refused]

/-- The code of tokens is made of their instructions. -/
theorem assembleTokens_eq_ok_iff :
    scope.assembleTokens position tokens = .ok code ↔
      List.Forall₂ (fun token instruction => scope.assembleToken token = .ok instruction)
        tokens code := by
  induction tokens generalizing position code with
  | nil => simp [assembleTokens, eq_comm]
  | cons token rest ih =>
      rw [List.forall₂_cons_left_iff]
      cases here : scope.assembleToken token with
      | error cause => simp [assembleTokens_of_error here]
      | ok instruction =>
          rw [assembleTokens_of_ok here]
          constructor
          · intro success
            obtain ⟨more, behind, success⟩ := bind_eq_ok success
            cases success
            exact ⟨instruction, more, rfl, ih.mp behind, rfl⟩
          · rintro ⟨other, more, same, behind, rfl⟩
            cases same
            rw [ih.mpr behind]
            rfl

/-- The error of tokens is that of the first one that is refused. -/
theorem assembleTokens_eq_error (failed : scope.assembleTokens position tokens = .error error) :
    ∃ before token after, tokens = before ++ token :: after ∧
      (∀ earlier ∈ before, ∃ instruction, scope.assembleToken earlier = .ok instruction) ∧
      scope.assembleToken token = .error error.cause ∧
      error.position = position + extent before := by
  induction tokens generalizing position with
  | nil => cases failed
  | cons token rest ih =>
      cases here : scope.assembleToken token with
      | error cause =>
          rw [assembleTokens_of_error here] at failed
          cases failed
          exact ⟨[], token, rest, rfl, by simp, here, rfl⟩
      | ok instruction =>
          rw [assembleTokens_of_ok here] at failed
          rcases bind_eq_error failed with behind | ⟨more, -, finished⟩
          · obtain ⟨before, culprit, after, rfl, assembled, refused, place⟩ := ih behind
            refine ⟨token :: before, culprit, after, rfl, ?_, refused, ?_⟩
            · exact List.forall_mem_cons.mpr ⟨⟨instruction, here⟩, assembled⟩
            · rw [place, extent_cons]
              omega
          · cases finished

/-- Where tokens begin shows in the position of their error only. -/
theorem assembleTokens_shift (bytes : Nat) :
    scope.assembleTokens (position + bytes) tokens =
      (scope.assembleTokens position tokens).mapError (·.shift bytes) := by
  induction tokens generalizing position with
  | nil => rfl
  | cons token rest ih =>
      cases here : scope.assembleToken token with
      | error cause =>
          rw [assembleTokens_of_error here, assembleTokens_of_error here]
          rfl
      | ok instruction =>
          have order : position + bytes + (String.ofList token).utf8ByteSize + 1 =
              position + (String.ofList token).utf8ByteSize + 1 + bytes := by omega
          rw [assembleTokens_of_ok here, assembleTokens_of_ok here, order, ih]
          cases scope.assembleTokens (position + (String.ofList token).utf8ByteSize + 1) rest <;> rfl

theorem assembleTokens_append (scope : Scope) (position : Nat) (front back : List (List Char)) :
    scope.assembleTokens position (front ++ back) = do
      let code ← scope.assembleTokens position front
      let more ← scope.assembleTokens (position + extent front) back
      return code ++ more := by
  induction front generalizing position with
  | nil =>
      simp only [List.nil_append, assembleTokens]
      change _ = scope.assembleTokens position back >>= fun more => .ok more
      cases scope.assembleTokens position back <;> rfl
  | cons token rest ih =>
      rw [List.cons_append]
      cases here : scope.assembleToken token with
      | error cause =>
          rw [assembleTokens_of_error here, assembleTokens_of_error here]
          rfl
      | ok instruction =>
          have behind : position + extent (token :: rest) =
              position + (String.ofList token).utf8ByteSize + 1 + extent rest := by
            rw [extent_cons]
            omega
          rw [assembleTokens_of_ok here, assembleTokens_of_ok here, ih, behind]
          cases scope.assembleTokens (position + (String.ofList token).utf8ByteSize + 1) rest with
          | error error => rfl
          | ok code =>
              cases scope.assembleTokens
                (position + (String.ofList token).utf8ByteSize + 1 + extent rest) back <;> rfl

/-! ## Texts joined by a bar -/

theorem joined_ne_empty (first second : String) : first ++ "|" ++ second ≠ "" := by
  intro empty
  have length := congrArg String.length empty
  simp only [String.length_append] at length
  have bar : "|".length = 1 := rfl
  have nothing : "".length = 0 := rfl
  omega

/-- The second text is assembled behind the first, and its errors are that much later. -/
theorem assemble_append_bar {first second : String} (one : first ≠ "") (other : second ≠ "") :
    scope.assemble (first ++ "|" ++ second) = do
      let code ← scope.assemble first
      let more ← (scope.assemble second).mapError (·.shift (first.utf8ByteSize + 1))
      return code ++ more := by
  rw [assemble_of_ne_empty (joined_ne_empty first second), assemble_of_ne_empty one,
    assemble_of_ne_empty other, splitOn_joined, assembleTokens_append, extent_splitOn,
    assembleTokens_shift]

/-- Assembly goes from text to text and locates its errors. Of two texts joined by a bar, the first
one's error is the error of both; otherwise the second one's code follows the first one's, and its
error comes with its position moved behind the first text and the bar. An error is always about the
first token that stands for no instruction and gives the byte at which that token begins. -/
theorem assembly_compositional (scope : Scope) :
    (∀ first second, first ≠ "" → second ≠ "" →
      (∀ error, scope.assemble first = .error error →
        scope.assemble (first ++ "|" ++ second) = .error error) ∧
      ∀ code, scope.assemble first = .ok code →
        (∀ more, scope.assemble second = .ok more →
          scope.assemble (first ++ "|" ++ second) = .ok (code ++ more)) ∧
        ∀ error, scope.assemble second = .error error →
          scope.assemble (first ++ "|" ++ second) =
            .error ⟨error.position + (first.utf8ByteSize + 1), error.cause⟩) ∧
    ∀ source error, scope.assemble source = .error error →
      ∃ before token after, source.toList.splitOn '|' = before ++ token :: after ∧
        source.toList = barred before ++ ['|'].intercalate (token :: after) ∧
        (∀ earlier ∈ before, ∃ instruction, scope.assembleToken earlier = .ok instruction) ∧
        scope.assembleToken token = .error error.cause ∧
        error.position = (String.ofList (barred before)).utf8ByteSize := by
  constructor
  · intro first second one other
    rw [assemble_append_bar one other]
    refine ⟨?_, ?_⟩
    · intro error failed
      rw [failed]
      rfl
    · intro code assembled
      rw [assembled]
      refine ⟨?_, ?_⟩
      · intro more success
        rw [success]
        rfl
      · intro error failed
        rw [failed]
        rfl
  · intro source error failed
    have text : source ≠ "" := by
      rintro rfl
      cases failed
    rw [assemble_of_ne_empty text] at failed
    obtain ⟨before, token, after, split, assembled, refused, place⟩ :=
      assembleTokens_eq_error failed
    refine ⟨before, token, after, split, ?_, assembled, refused, by simpa [extent] using place⟩
    -- Joining the tokens again gives the text, with a bar between what comes before and the token.
    have whole := barred_splitOn source.toList
    rw [split, barred_append, barred_eq_intercalate (List.cons_ne_nil _ _),
      ← List.append_assoc] at whole
    exact (List.append_cancel_right whole).symm

/-- A scope with one function, whose name takes two bytes for each of its letters. -/
def accented : Scope :=
  ⟨some ⟨[.declared "éà" 0]⟩, none⟩

theorem assembly_compositional_accented :
    accented.assemble "()0,éà|R0" = .ok [.call 0 ⟨0⟩ [], .leave 0] ∧
      accented.assemble "A1|Q" = .error ⟨3, .invalidOpcode "Q"⟩ ∧
      accented.assemble ("()0,éà|R0" ++ "|" ++ "A1|Q") = .error ⟨15, .invalidOpcode "Q"⟩ := by
  have first : accented.assemble "()0,éà|R0" = .ok [.call 0 ⟨0⟩ [], .leave 0] := by
    decide +kernel
  have second : accented.assemble "A1|Q" = .error ⟨3, .invalidOpcode "Q"⟩ := by
    decide +kernel
  exact ⟨first, second,
    (((assembly_compositional accented).1 _ _ (by decide) (by decide)).2 _ first).2 _ second⟩

end Scope
end RegisterMachine
