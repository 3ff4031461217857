import RegisterMachine.Verify

/-!
Listings of code for people to read, and counts of opcodes.

A listing covers a function and all functions it calls, directly or not, each once.
-/
set_option autoImplicit false

namespace RegisterMachine

namespace Module

/-- The callees that are functions of the module, are not among `known` and do not stand earlier in
the list. -/
def freshCallees (module : Module) (known : List FuncId) : List FuncId → List FuncId
  | [] => []
  | id :: rest =>
    if id ∈ known ∨ (module.get? id).isNone then module.freshCallees known rest
    else id :: module.freshCallees (id :: known) rest

theorem not_mem_known_of_mem_freshCallees {module : Module} {known callees : List FuncId}
    {id : FuncId} (fresh : id ∈ module.freshCallees known callees) :
    id ∉ known ∧ id ∈ module.ids := by
  induction callees generalizing known with
  | nil => simp [freshCallees] at fresh
  | cons head rest ih =>
    simp only [freshCallees] at fresh
    split at fresh
    · exact ih fresh
    · rename_i unknown
      simp only [not_or] at unknown
      rcases List.mem_cons.mp fresh with rfl | later
      · obtain ⟨definition, present⟩ : ∃ definition, module.get? id = some definition := by
          cases found : module.get? id with
          | none => simp [found] at unknown
          | some definition => exact ⟨definition, rfl⟩
        exact ⟨unknown.1, mem_ids_of_get?_eq_some present⟩
      · exact ⟨fun inside => (ih later).1 (List.mem_cons_of_mem _ inside), (ih later).2⟩

/-- The functions discovered from `waiting`, which are discovered but not yet looked into, after
those in `done`. A function is noted when it is first called, and calls to ids that are not in the
module are passed over. -/
def discoverFrom (module : Module) (done : List FuncId) : List FuncId → List FuncId
  | [] => done
  | id :: waiting =>
    module.discoverFrom (done ++ [id])
      (waiting ++ module.freshCallees (done ++ id :: waiting) (module.calleesOf id))
termination_by waiting => (module.remaining (done ++ waiting), waiting.length)
decreasing_by
  cases fresh : module.freshCallees (done ++ id :: waiting) (module.calleesOf id) with
  | nil =>
    simp only [List.append_nil, List.append_assoc, List.singleton_append, List.length_cons]
    exact Prod.Lex.right _ (by simp)
  | cons first others =>
    have new : first ∈ module.freshCallees (done ++ id :: waiting) (module.calleesOf id) := by
      simp [fresh]
    have facts := not_mem_known_of_mem_freshCallees new
    refine Prod.Lex.left _ _ (remaining_lt facts.2 facts.1 (fun other inside => ?_) (by simp))
    simp only [List.mem_append, List.mem_cons] at inside ⊢
    grind

/-- The function `entry` and the functions it calls, directly or not, in the order in which a
listing shows them. -/
def discover (module : Module) (entry : FuncId) : List FuncId :=
  module.discoverFrom [] [entry]

end Module

namespace Listing

/-- Names to show for called functions. -/
abbrev Labels := List (FuncId × String)

/-- The name to show for a function. -/
def label (labels : Labels) (id : FuncId) : String :=
  (labels.lookup id).getD id.text

/-- A slot of the running frame. -/
def slot (slot : Slot) : String :=
  s!"r{slot.toNat}"

/-- An instruction index, in four digits or more. -/
def index (index : Nat) : String :=
  Text.padLeft 4 '0' (toString index)

/-- The operands of an instruction. -/
def operands (labels : Labels) : Instruction → String
  | .allocate _ dest => slot dest
  | .store _ x y => s!"[{slot x}] <- {slot y}"
  | .load _ dest x => s!"{slot dest} <- [{slot x}]"
  | .equal dest x y | .add dest x y => s!"{slot dest} <- {slot x}, {slot y}"
  | .constant dest value => s!"{slot dest} <- {value.text}"
  | .constantInt32 dest value => slot dest ++ " <- " ++ (Value.int32 value).text
  | .constantDouble dest value => slot dest ++ " <- " ++ (Value.double value).text
  | .extract _ dest x => s!"{slot dest} <- {slot x}"
  | .jump target => s!"→ {index target.toNat}"
  | .branch x target => s!"{slot x} → {index target.toNat}"
  | .call dest callee args =>
    let args := String.intercalate ", " (args.map fun arg => s!"@{arg.toNat}")
    s!"{slot dest} <- {label labels callee}({args})"
  | .leave x => slot x
  | .execute dest callee args =>
    let args := String.intercalate ", " (args.map slot)
    s!"{slot dest} <- {slot callee}({args})"

/-- The line of an instruction after its index and mark. -/
def instruction (labels : Labels) (instruction : Instruction) : String :=
  Text.padRight 12 instruction.opcode.mnemonic ++ operands labels instruction

/-- The instruction indices that jumps and branches name. -/
def targets (code : List Instruction) : List Nat :=
  (code.filterMap Instruction.target?).map UInt16.toNat

/-- The line above an instruction that is jumped to. -/
def separator : String :=
  "      ┌──────────────────────────────────\n"

/-- The lines of one instruction: its index, a mark and a line above if it is jumped to, and its
text. -/
def lines (labels : Labels) (targets : List Nat) (instr : Instruction) (pc : Nat) : String :=
  if pc ∈ targets then separator ++ index pc ++ " ► " ++ instruction labels instr ++ "\n"
  else index pc ++ "   " ++ instruction labels instr ++ "\n"

/-- The listing of a sequence of instructions. -/
def code (labels : Labels) (code : List Instruction) : String :=
  String.join (code.zipIdx.map fun (instr, pc) => lines labels (targets code) instr pc)

/-- The line around the heading of a function. -/
def rule : String :=
  "════════════════════════════════════════\n"

/-- The listing of one function under its label. -/
def definition (labels : Labels) (id : FuncId) (definition : Definition) : String :=
  let title := label labels id
  let note := if definition.isDefined then "" else " (declared, not defined)\n"
  let size := definition.code.length
  let args := definition.argCount.toNat
  let locals := definition.numLocals.toNat
  rule ++ s!" {title}\n" ++ note ++ s!" {size} instructions, {args} args, {locals} locals\n" ++
    rule ++ code labels definition.code ++ "\n"

/-- The functions that the listing of `function` shows. -/
def sections (function : Function) : List (FuncId × Definition) :=
  (function.module.discover function.id).filterMap fun id =>
    (function.module.get? id).map fun definition => (id, definition)

/-- Functions are labelled by name; a nameless entry is `main` and other nameless functions go by
their ids. -/
def labels (function : Function) : Labels :=
  (sections function).map fun (id, definition) =>
    (id, definition.name.getD (if id = function.id then "main" else id.text))

/-- The listing of a function and everything it calls. -/
def function (function : Function) : String :=
  String.join ((sections function).map fun (id, shown) =>
    definition (labels function) id shown)

/-- Whether a count comes before another: larger counts first, equal counts by mnemonic. -/
def precedes (a b : Opcode × Nat) : Bool :=
  b.2 < a.2 || (a.2 = b.2 && a.1.mnemonic ≤ b.1.mnemonic)

/-- Count one more occurrence of an opcode. -/
def countOne (entries : List (Opcode × Nat)) (opcode : Opcode) : List (Opcode × Nat) :=
  if opcode ∈ entries.map Prod.fst then
    entries.map fun entry => (entry.1, if entry.1 = opcode then entry.2 + 1 else entry.2)
  else entries ++ [(opcode, 1)]

/-- Count the occurrences one after the other. -/
def tally (opcodes : List Opcode) : List (Opcode × Nat) :=
  opcodes.foldl countOne []

/-- The opcodes of all instructions that a listing shows. -/
def shownOpcodes (function : Function) : List Opcode :=
  ((sections function).flatMap fun shown => shown.2.code).map Instruction.opcode

/-- How often each opcode occurs in a function and everything it calls, the most frequent first. -/
def opcodeCounts (function : Function) : List (Opcode × Nat) :=
  (tally (shownOpcodes function)).mergeSort precedes

end Listing
end RegisterMachine
