import JobConsole.Bus.Display
import JobConsole.Execution.Run
import JobConsole.Http.Server
import JobConsole.Live.EventStream
import JobConsole.Proofs.Artifact.Naming
import JobConsole.Proofs.Artifact.Stability
import JobConsole.Proofs.Config.Limits
import JobConsole.Proofs.Execution.Forwarding
import JobConsole.Proofs.Http.Download
import JobConsole.Proofs.Http.Interleaving
import JobConsole.Proofs.Job.Record
import JobConsole.Proofs.Live.Delivery
import JobConsole.Proofs.Live.Framing
import JobConsole.Proofs.Live.Ledger
import JobConsole.Proofs.Output.Calls
import JobConsole.Proofs.Output.Chunks
import JobConsole.Proofs.Refinery.Rejection
import JobConsole.Proofs.Registry.Listing
import JobConsole.Proofs.Wire.Event
