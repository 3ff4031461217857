/-!
Options of the command line.

Flags may stand anywhere. What is neither a flag nor the path after one is positional.
-/
set_option autoImplicit false

namespace RegisterMachine.CommandLine

/-- Where the program to run comes from. -/
inductive Program where
  /-- Assembly text. -/
  | source (text : String)
  /-- The path of an image. -/
  | image (path : String)
deriving DecidableEq

/-- What the command line asks for. -/
structure Options where
  /-- Print the listing before running. -/
  listing : Bool
  /-- Print opcode counts before running. -/
  counts : Bool
  /-- Log every executed instruction. -/
  trace : Bool
  /-- Where to write the program as an image. -/
  imageOut : Option String
  program : Program
  /-- The arguments of the program, as literals. -/
  args : List String
deriving DecidableEq

/-- A command line that cannot be understood. -/
inductive UsageError where
  | imageWithoutPath
  | loadWithoutPath
  | unknownFlag (flag : String)
  | noProgram
deriving DecidableEq

def UsageError.message : UsageError → String
  | .imageWithoutPath => "--image needs an output path"
  | .loadWithoutPath => "--load needs an image path"
  | .unknownFlag flag => s!"unknown flag '{flag}'"
  | .noProgram => "no program given"

/-- The flags and positional arguments found so far. -/
structure Scan where
  listing : Bool
  counts : Bool
  trace : Bool
  imageOut : Option String
  /-- The path of the image to run. -/
  load : Option String
  /-- The positional argument that was taken for the program's text. -/
  source : Option String
  /-- The other positional arguments. -/
  args : List String
deriving DecidableEq

namespace Scan

def empty : Scan :=
  ⟨false, false, false, none, none, none, []⟩

/-- Take a positional argument. The first one is taken for the program's text, unless an image has
been named before. -/
def positional (scan : Scan) (argument : String) : Scan :=
  if scan.load = none ∧ scan.source = none then { scan with source := some argument }
  else { scan with args := scan.args ++ [argument] }

/-- Sort the arguments into flags and positional ones. The last of several paths counts. -/
def arguments (scan : Scan) : List String → Except UsageError Scan
  | [] => .ok scan
  | "--disasm" :: rest => { scan with listing := true }.arguments rest
  | "--stats" :: rest => { scan with counts := true }.arguments rest
  | "--trace" :: rest => { scan with trace := true }.arguments rest
  | ["--image"] => .error .imageWithoutPath
  | "--image" :: path :: rest => { scan with imageOut := some path }.arguments rest
  | ["--load"] => .error .loadWithoutPath
  | "--load" :: path :: rest => { scan with load := some path }.arguments rest
  | argument :: rest =>
    if "--".toList.isPrefixOf argument.toList then .error (.unknownFlag argument)
    else (scan.positional argument).arguments rest

/-- The program and its arguments. With an image every positional is an argument, so one that was
taken for the program's text goes back to the front. -/
def program (scan : Scan) : Except UsageError (Program × List String) :=
  match scan.load, scan.source with
  | some path, some text => .ok (.image path, text :: scan.args)
  | some path, none => .ok (.image path, scan.args)
  | none, some text => .ok (.source text, scan.args)
  | none, none => .error .noProgram

end Scan

/-- Read the options from the command line's arguments. -/
def parseOptions (arguments : List String) : Except UsageError Options := do
  let scan ← Scan.empty.arguments arguments
  let (program, args) ← scan.program
  return ⟨scan.listing, scan.counts, scan.trace, scan.imageOut, program, args⟩

/-- Whether the usage text is asked for. -/
def wantsHelp (arguments : List String) : Bool :=
  arguments.isEmpty || arguments.any fun argument => argument = "--help" || argument = "-h"

/-- How to use the command line. -/
def usage : String :=
  String.join ([
    "SCRAMJET - register bytecode evaluator",
    "",
    "Usage:",
    "  scramjet [flags] <dsl> [args...]     Assemble, verify and run a function",
    "  scramjet [flags] --load <image> [args...]",
    "",
    "Flags:",
    "  --disasm           Print the listing before running",
    "  --stats            Print opcode counts before running",
    "  --trace            Log every executed instruction",
    "  --image <out>      Write the assembled function as an image",
    "  --load <image>     Run a function from an image instead of DSL text",
    "",
    "Arguments use literal syntax: i42, d2.5, T, F.",
    "The function takes one parameter per argument given."].map (· ++ "\n"))

end RegisterMachine.CommandLine
