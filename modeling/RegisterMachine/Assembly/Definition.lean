import RegisterMachine.Assembly.Basic

/-!
Functions defined by assembly text.
-/
set_option autoImplicit false

namespace RegisterMachine

/-- The slots of its own frame that an instruction mentions. The arguments of a call are absolute
stack indices and do not count. -/
def Instruction.frameSlots (instruction : Instruction) : List Slot :=
  instruction.dest?.toList ++ instruction.x?.toList ++ instruction.y?.toList ++
    match instruction with
    | .execute _ _ args => args
    | _ => []

/-- The number of locals that cover every slot the code mentions, beside `argCount` arguments. The
count of slots stops at the largest slot number. -/
def localsNeeded (code : List Instruction) (argCount : Slot) : Slot :=
  match ((code.flatMap Instruction.frameSlots).map UInt16.toNat).max? with
  | none => 0
  | some highest => UInt16.ofNat (min (highest + 1) 65535 - argCount.toNat)

/-- Declare `name`, assemble its body, which may call itself, and define it. Without `numLocals`
the locals are those the code needs. If the text is refused, the declaration disappears again; the
module is the one that is left in either case. -/
def Module.attemptText (module : Module) (callbacks : Option Registry) (name source : String)
    (argCount : Slot) (numLocals : Option Slot) : Except AssemblyError FuncId × Module :=
  match module.declare name argCount with
  | .error error => (.error ⟨0, .build error⟩, module)
  | .ok (id, declared) =>
    match Scope.assemble ⟨some declared, callbacks⟩ source with
    | .error error => (.error error, declared.truncate module.size)
    | .ok code =>
      match declared.define id code (numLocals.getD (localsNeeded code argCount)) with
      | .error error => (.error ⟨0, .build error⟩, declared.truncate module.size)
      | .ok defined => (.ok id, defined)

/-- The function that a text defines, with the module it has been entered in. -/
def Module.defineText (module : Module) (callbacks : Option Registry) (name source : String)
    (argCount : Slot) (numLocals : Option Slot) : Except AssemblyError (FuncId × Module) :=
  match module.attemptText callbacks name source argCount numLocals with
  | (.ok id, defined) => .ok (id, defined)
  | (.error error, _) => .error error

end RegisterMachine
