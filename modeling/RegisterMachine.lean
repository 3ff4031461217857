import RegisterMachine.Assembly.Printer
import RegisterMachine.Main
import RegisterMachine.Proofs.Machine.Plan
import RegisterMachine.Proofs.Machine.Progress
import RegisterMachine.Proofs.Machine.Faults
import RegisterMachine.Proofs.Machine.Consistency
import RegisterMachine.Proofs.Machine.Bracketing
import RegisterMachine.Proofs.Machine.Soundness
import RegisterMachine.Proofs.Machine.Parameters
import RegisterMachine.Proofs.Machine.Cells
import RegisterMachine.Proofs.Machine.Lockstep
import RegisterMachine.Proofs.Machine.Limits
import RegisterMachine.Proofs.Machine.Bounds
import RegisterMachine.Proofs.Machine.Resources
import RegisterMachine.Proofs.Machine.Callbacks
import RegisterMachine.Proofs.Machine.Termination
import RegisterMachine.Proofs.Module.Rules
import RegisterMachine.Proofs.Module.BreadthFirst
import RegisterMachine.Proofs.Module.Import
import RegisterMachine.Proofs.Image.Codec
import RegisterMachine.Proofs.Image.RoundTrip
import RegisterMachine.Proofs.Engine.Definition
import RegisterMachine.Proofs.Engine.Registration
import RegisterMachine.Proofs.Engine.Operations
import RegisterMachine.Proofs.Engine.Persistence
import RegisterMachine.Proofs.Image.Canonical
import RegisterMachine.Proofs.Engine.Transfer
import RegisterMachine.Proofs.Engine.Names
import RegisterMachine.Proofs.Text.Number
import RegisterMachine.Proofs.Assembly.Tokens
import RegisterMachine.Proofs.Double.ReadBack
import RegisterMachine.Proofs.Assembly.RoundTrip
import RegisterMachine.Proofs.Assembly.Definition
import RegisterMachine.Proofs.Assembly.Locals
import RegisterMachine.Proofs.Listing.Traversal
import RegisterMachine.Proofs.Listing.Statistics
import RegisterMachine.Proofs.Listing.Operands
import RegisterMachine.Proofs.Listing.Lines
import RegisterMachine.Proofs.Instruction.Equality
import RegisterMachine.Proofs.CommandLine.Placement
