import RegisterMachine.CommandLine.Options
import RegisterMachine.Engine
import RegisterMachine.Listing

/-!
What the command line does, over any system that has files and two output channels.
-/
set_option autoImplicit false

namespace RegisterMachine.CommandLine

/-- The files and output channels of a system. A file operation that fails gives the reason. -/
structure System (m : Type → Type) where
  fetch : String → m (Except String (List UInt8))
  store : String → List UInt8 → m (Except String Unit)
  print : String → m Unit
  printError : String → m Unit

/-- The name of the program's entry function. -/
def entry : String := "main"

/-- The callback `print`: one line with the texts of all arguments. -/
def printCallback : Callback := fun invocation =>
  ⟨.undefined, [String.intercalate " " (invocation.args.map Value.text)]⟩

/-- An engine with the callback `print`. -/
def newEngine : Except EngineError Engine := do
  let (_, engine) ← (Engine.new 0 .unlimited).registerCallback "print" printCallback
  return engine

/-- The values of the program's arguments. -/
def readArguments (engine : Engine) (args : List String) : Except String (List Value) :=
  args.mapM fun arg =>
    match readLiteral (some engine.host) arg.toList with
    | .ok value => .ok value
    | .error error => .error s!"argument '{arg}': {error.message}"

/-- Enter a program given as text, which takes `argCount` arguments. The entry may call itself by
name. -/
def enterSource (engine : Engine) (text : String) (argCount : Nat) :
    Except String (Function × Engine) :=
  if 65535 < argCount then .error "too many arguments"
  else match Module.empty.defineText (some engine.host) entry text (UInt16.ofNat argCount) none with
    | .error error => .error error.message
    | .ok (id, module) =>
      match Function.of? ⟨1, 0⟩ module id with
      | none => .error "assembled function missing"
      | some function =>
        match engine.define entry function with
        | (.ok function, engine) => .ok (function, engine)
        | (.error error, _) => .error error.message

/-- Enter a program given as an image. -/
def enterImage (engine : Engine) (bytes : List UInt8) : Except String (Function × Engine) :=
  match engine.loadImage entry bytes with
  | (.ok function, engine) => .ok (function, engine)
  | (.error error, _) => .error error.message

/-- The table of opcode counts. -/
def countsTable (function : Function) : String :=
  let rows := (Listing.opcodeCounts function).map fun (opcode, count) =>
    Text.padRight 14 opcode.mnemonic ++ s!" {count}\n"
  "=== OPCODES ===\n" ++ String.join rows ++ "\n"

/-- What is printed before the program runs. -/
def preamble (options : Options) (function : Function) : String :=
  (if options.listing then Listing.function function ++ "\n" else "") ++
    (if options.counts then countsTable function else "")

variable {m : Type → Type} [Monad m]

/-- Enter the program that the options name. -/
def load (system : System m) (engine : Engine) (program : Program) (argCount : Nat) :
    m (Except String (Function × Engine)) := do
  match program with
  | .source text => return enterSource engine text argCount
  | .image path =>
    match ← system.fetch path with
    | .error reason => return .error s!"failed to read '{path}': {reason}"
    | .ok bytes => return enterImage engine bytes

/-- Write the entry function as an image, if asked for. -/
def save (system : System m) (engine : Engine) : Option String → m (Except String Unit)
  | none => return .ok ()
  | some path => do
    match engine.saveImage entry with
    | .error error => return .error error.message
    | .ok bytes =>
      match ← system.store path bytes with
      | .error reason => return .error s!"failed to write '{path}': {reason}"
      | .ok () =>
        system.printError s!"wrote {bytes.length} bytes to {path}\n"
        return .ok ()

/-- Run the entry function, for at most `fuel` instructions, and print its result. -/
def execute (system : System m) (fuel : Nat) (engine : Engine) (values : List Value) :
    m (Except String Unit) := do
  let (result, machine) := engine.run fuel entry values
  system.print (String.join (machine.output.toList.map (· ++ "\n")))
  match result with
  | .ok (some value) =>
    system.print (value.text ++ "\n")
    return .ok ()
  | .ok none => return .error s!"no result after {fuel} instructions"
  | .error error => return .error error.message

/-- Do what the options ask for. -/
def perform (system : System m) (fuel : Nat) (options : Options) : m (Except String Unit) := do
  match newEngine with
  | .error error => return .error error.message
  | .ok engine =>
    match readArguments engine options.args with
    | .error reason => return .error reason
    | .ok values =>
      match ← load system engine options.program values.length with
      | .error reason => return .error reason
      | .ok (function, engine) =>
        system.print (preamble options function)
        match ← save system engine options.imageOut with
        | .error reason => return .error reason
        | .ok () => execute system fuel engine values

/-- The whole command line. The result is the exit code. -/
def run (system : System m) (fuel : Nat) (arguments : List String) : m UInt32 := do
  if wantsHelp arguments then
    system.print usage
    return 0
  match parseOptions arguments with
  | .error error =>
    system.printError s!"Error: {error.message}\n"
    system.print usage
    return 1
  | .ok options =>
    match ← perform system fuel options with
    | .ok () => return 0
    | .error reason =>
      system.printError s!"Error: {reason}\n"
      return 1

end RegisterMachine.CommandLine
