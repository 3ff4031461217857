import RegisterMachine.Image.Wire
import RegisterMachine.Verify

/-!
Images: a function and everything it calls, as bytes.

An image begins with a magic number and a format version, then comes the entry's id and the table of
functions. Values are kept bit by bit. Reading an image verifies it.
-/
set_option autoImplicit false

namespace RegisterMachine

/-- Why an image could not be written or read. -/
inductive ImageError where
  | invalidMagic (found : UInt32)
  | unsupportedVersion (found : UInt8)
  | malformed (error : Wire.Error)
  | verify (error : VerifyError)
  | build (error : BuildError)
deriving DecidableEq

def ImageError.message : ImageError → String
  | .invalidMagic found =>
    "invalid image magic number 0x" ++ Text.padLeft 8 '0' (Text.hex found.toNat)
  | .unsupportedVersion found => s!"unsupported image version {found.toNat}"
  | .malformed error => s!"malformed image: {error.message}"
  | .verify error => s!"image failed verification: {error.message}"
  | .build error => s!"cannot build image: {error.message}"

/-- The content of an image. -/
structure Image where
  magic : UInt32
  version : UInt8
  entry : FuncId
  functions : List Definition
deriving DecidableEq

namespace Image

open Wire

/-- The number that every image begins with. -/
def currentMagic : UInt32 := 0x534a4554

/-- The format written and read here. -/
def currentVersion : UInt8 := 2

/-! ## Writing -/

def writeSlot (slot : Slot) : List UInt8 :=
  writeNumber .bits16 slot.toNat

def writeFuncId (id : FuncId) : List UInt8 :=
  writeNumber .bits32 id.index

def writeDouble (value : Double) : List UInt8 :=
  writeBytes 8 value.bits.toNat

/-- The number of an alternative. -/
def writeVariant (variant : Nat) : List UInt8 :=
  writeNumber .bits32 variant

def writeTag : Tag → List UInt8
  | .nativeCallback => writeVariant 0
  | .code => writeVariant 1
  | .user number => writeVariant 2 ++ writeNumber .bits16 number.toNat

def writeValue : Value → List UInt8
  | .null => writeVariant 0
  | .undefined => writeVariant 1
  | .boolean value => writeVariant 2 ++ writeBool value
  | .int32 value => writeVariant 3 ++ writeInt32 value
  | .double value => writeVariant 4 ++ writeDouble value
  | .tagged tag word => writeVariant 5 ++ writeTag tag ++ writeNumber .bits64 word.toNat

/-- The operands of an instruction. -/
def writeOperands : Instruction → List UInt8
  | .allocate _ dest => writeSlot dest
  | .store _ x y => writeSlot x ++ writeSlot y
  | .load _ dest x => writeSlot dest ++ writeSlot x
  | .equal dest x y => writeSlot dest ++ writeSlot x ++ writeSlot y
  | .constant dest value => writeSlot dest ++ writeValue value
  | .constantInt32 dest value => writeSlot dest ++ writeInt32 value
  | .constantDouble dest value => writeSlot dest ++ writeDouble value
  | .extract _ dest x => writeSlot dest ++ writeSlot x
  | .jump target => writeSlot target
  | .branch x target => writeSlot x ++ writeSlot target
  | .add dest x y => writeSlot dest ++ writeSlot x ++ writeSlot y
  | .call dest callee args => writeSlot dest ++ writeFuncId callee ++ writeList writeSlot args
  | .leave x => writeSlot x
  | .execute dest callee args => writeSlot dest ++ writeSlot callee ++ writeList writeSlot args

def writeInstruction (instruction : Instruction) : List UInt8 :=
  writeVariant (Opcode.all.idxOf instruction.opcode) ++ writeOperands instruction

def writeDefinition (definition : Definition) : List UInt8 :=
  writeOption writeString definition.name ++ writeSlot definition.argCount ++
    writeSlot definition.numLocals ++ writeOption (writeList writeInstruction) definition.body

/-- The bytes of an image. -/
def write (image : Image) : List UInt8 :=
  writeNumber .bits32 image.magic.toNat ++ [image.version] ++ writeFuncId image.entry ++
    writeList writeDefinition image.functions

/-! ## Reading -/

def readSlot : Reader Slot := do
  return UInt16.ofNat (← readNumber .bits16)

def readFuncId : Reader FuncId := do
  return .ofIndex (← readNumber .bits32)

def readDouble : Reader Double := do
  return ⟨UInt64.ofNat (← readBytes 8)⟩

def readVariant : Reader Nat :=
  readNumber .bits32

def readTag : Reader Tag := do
  match ← readVariant with
  | 0 => return .nativeCallback
  | 1 => return .code
  | 2 => return .user (UInt16.ofNat (← readNumber .bits16))
  | _ => throw .unknownVariant

def readValue : Reader Value := do
  match ← readVariant with
  | 0 => return .null
  | 1 => return .undefined
  | 2 => return .boolean (← readBool)
  | 3 => return .int32 (← readInt32)
  | 4 => return .double (← readDouble)
  | 5 => return .tagged (← readTag) (UInt64.ofNat (← readNumber .bits64))
  | _ => throw .unknownVariant

/-- The rest of an instruction with this opcode. -/
def readOperands : Opcode → Reader Instruction
  | .allocate access => return .allocate access (← readSlot)
  | .store access => return .store access (← readSlot) (← readSlot)
  | .load access => return .load access (← readSlot) (← readSlot)
  | .equal => return .equal (← readSlot) (← readSlot) (← readSlot)
  | .constant .any => return .constant (← readSlot) (← readValue)
  | .constant (.only .int32) => return .constantInt32 (← readSlot) (← readInt32)
  | .constant (.only .double) => return .constantDouble (← readSlot) (← readDouble)
  | .extract kind => return .extract kind (← readSlot) (← readSlot)
  | .jump => return .jump (← readSlot)
  | .branch => return .branch (← readSlot) (← readSlot)
  | .add => return .add (← readSlot) (← readSlot) (← readSlot)
  | .call => return .call (← readSlot) (← readFuncId) (← readList readSlot)
  | .leave => return .leave (← readSlot)
  | .execute => return .execute (← readSlot) (← readSlot) (← readList readSlot)

def readInstruction : Reader Instruction := do
  match Opcode.all[← readVariant]? with
  | some opcode => readOperands opcode
  | none => throw .unknownVariant

def readDefinition : Reader Definition := do
  let name ← readOption readString
  let argCount ← readSlot
  let numLocals ← readSlot
  let body ← readOption (readList readInstruction)
  return ⟨name, argCount, numLocals, body⟩

/-- An image from the front of some bytes. -/
def read : Reader Image := do
  let magic ← readNumber .bits32
  let version ← readByte
  let entry ← readFuncId
  let functions ← readList readDefinition
  return ⟨UInt32.ofNat magic, version, entry, functions⟩

/-- The bytes of an image of `function` and every function it can reach. -/
def encode (function : Function) : Except ImageError (List UInt8) :=
  match Module.empty.importFunction function with
  | .ok (entry, module) => .ok (write ⟨currentMagic, currentVersion, entry, module.functions⟩)
  | .error error => .error (.build error)

/-- The entry function of an image. The whole image is read before magic number, version and code
are looked at, in this order; bytes after it are ignored. -/
def decode (stamp : Stamp) (bytes : List UInt8) : Except ImageError Function :=
  match read bytes with
  | .error error => .error (.malformed error)
  | .ok (image, _) =>
    if image.magic ≠ currentMagic then .error (.invalidMagic image.magic)
    else if image.version ≠ currentVersion then .error (.unsupportedVersion image.version)
    else
      let module : Module := ⟨image.functions⟩
      match module.checkReachable image.entry with
      | .error error => .error (.verify error)
      | .ok () =>
        match Function.of? stamp module image.entry with
        | some function => .ok function
        | none => .error (.verify (.unknownFunction image.entry))

end Image
end RegisterMachine
