import RegisterMachine.CommandLine.Run

/-!
The command line on a real system.
-/
set_option autoImplicit false

namespace RegisterMachine.CommandLine

/-- The reason of a failed file operation. -/
def reason : IO.Error → String
  | .noFileOrDirectory .. => "No such file or directory (os error 2)"
  | other => toString other

/-- Run a file operation and give the reason if it fails. -/
def attempt {α : Type} (action : IO α) : IO (Except String α) := do
  try return .ok (← action)
  catch error => return .error (reason error)

/-- The real files and output channels. -/
def system : System IO where
  fetch path := attempt do return (← IO.FS.readBinFile path).toList
  store path bytes := attempt (IO.FS.writeBinFile path bytes.toByteArray)
  print text := IO.print text
  printError text := IO.eprint text

end RegisterMachine.CommandLine

/-- Run the command line. -/
def main (arguments : List String) : IO UInt32 :=
  RegisterMachine.CommandLine.run RegisterMachine.CommandLine.system UInt64.size arguments
