import Patchbay.Clipboard
import Patchbay.Inspect
import Patchbay.Main
import Patchbay.Proofs.CompiledFlag
import Patchbay.Proofs.Stackless
import Patchbay.Proofs.Simulation
import Patchbay.Proofs.History
import Patchbay.Proofs.Walk
import Patchbay.Proofs.Turns
import Patchbay.Proofs.Surroundings
import Patchbay.Proofs.Traversal
import Patchbay.Proofs.ReturnPoints
import Patchbay.Proofs.Independence
import Patchbay.Proofs.Reread
import Patchbay.Proofs.Echo
import Patchbay.Proofs.Restoring
import Patchbay.Proofs.Printing
import Patchbay.Proofs.Persistence
import Patchbay.Proofs.Copying
import Patchbay.Proofs.WellFormed
import Patchbay.Proofs.Editing
import Patchbay.Proofs.Invocations
import Patchbay.Proofs.Calls
import Patchbay.Proofs.Widening
import Patchbay.Proofs.Unedited
import Patchbay.Proofs.Snapshots
import Patchbay.Proofs.Lifecycles
import Patchbay.Proofs.Initialization
import Patchbay.Proofs.Integrity
import Patchbay.Proofs.Delivery
import Patchbay.Proofs.Clippings
import Patchbay.Proofs.Transplant
import Patchbay.Proofs.Resolvers
import Patchbay.Proofs.Saving
import Patchbay.Proofs.Survivors
import Patchbay.Proofs.Pasting
import Patchbay.Proofs.Fixtures
import Patchbay.Proofs.Switches
import Patchbay.Proofs.CallSites
import Patchbay.Proofs.Arity
import Patchbay.Proofs.Structure
import Patchbay.Proofs.Rebuilding
import Patchbay.Proofs.Wiring
import Patchbay.Proofs.Depth
import Patchbay.Proofs.Results
import Patchbay.Proofs.Assembly
import Patchbay.Proofs.Fitting
import Patchbay.Proofs.Acceptance
import Patchbay.Proofs.Pruning
import Patchbay.Proofs.Evaluations
import Patchbay.Proofs.Coercion
import Patchbay.Proofs.Plain
import Patchbay.Proofs.TypeNames
import Patchbay.Proofs.Comparison
import Patchbay.Proofs.Clamping
import Patchbay.Proofs.Ranges
import Patchbay.Proofs.Entries
import Patchbay.Proofs.Paths
import Patchbay.Proofs.Folders
import Patchbay.Proofs.Loading
import Patchbay.Proofs.Recovery
import Patchbay.Proofs.Replaying
