import Resumable.Weave.File
import Resumable.Procedure.Liveness
import Resumable.Classify.Classification
import Resumable.Procedure.Validity
import Resumable.Procedure.Text
import Resumable.Procedure.Builder
import Resumable.Primitive
import Resumable.Unit.Json
import Resumable.Json.Printer
import Resumable.Json.Reader
import Resumable.Task.Pool
import Resumable.Task.Generator
import Resumable.Task.Crew
import Resumable.Task.Waiting
import Resumable.Task.Workers
import Resumable.Script.Body
import Resumable.Script.Json
import Resumable.Proofs.Search
import Resumable.Proofs.Classify.Subtypes
import Resumable.Proofs.Classify.Resolution
import Resumable.Proofs.Classify.Closure
import Resumable.Proofs.Classify.LeastFixedPoint
import Resumable.Proofs.Ascending
import Resumable.Proofs.Procedure.Liveness
import Resumable.Proofs.Weave.Numbering
import Resumable.Proofs.Weave.Correspondence
import Resumable.Proofs.Weave.CleanUnit
import Resumable.Proofs.Machine.Faults
import Resumable.Proofs.Task.Drive
import Resumable.Proofs.Machine.Places
import Resumable.Proofs.Machine.Preservation
import Resumable.Proofs.Machine.Resumption
import Resumable.Proofs.Machine.Interpretation
import Resumable.Proofs.Machine.Agreement
import Resumable.Proofs.Machine.Matching
import Resumable.Proofs.Machine.Simulation
import Resumable.Proofs.Machine.Equivalence
import Resumable.Proofs.Mailbox.Bounds
import Resumable.Proofs.Task.Commons
import Resumable.Proofs.Mailbox.Traffic
import Resumable.Proofs.Task.Orderly
import Resumable.Proofs.Task.Lifecycle
import Resumable.Proofs.Mailbox.Tended
import Resumable.Proofs.Task.Attended
import Resumable.Proofs.Task.Attendance
import Resumable.Proofs.Machine.Waiting
import Resumable.Proofs.Machine.Wakeups
import Resumable.Proofs.Weave.Soundness
import Resumable.Proofs.Classify.Defects
import Resumable.Proofs.Classify.Replacement
import Resumable.Proofs.Weave.Idempotence
import Resumable.Proofs.Classify.Reordering
import Resumable.Proofs.Weave.Reordering
import Resumable.Proofs.Machine.Offering
import Resumable.Proofs.Machine.Generation
import Resumable.Proofs.Task.Shift
import Resumable.Proofs.Task.Listening
import Resumable.Proofs.Task.Notification
import Resumable.Proofs.Task.Turns
import Resumable.Proofs.Procedure.Paths
import Resumable.Proofs.Weave.Acceptance
import Resumable.Proofs.Weave.Accounting
import Resumable.Proofs.Json.Scalars
import Resumable.Proofs.Json.Text
import Resumable.Proofs.Json.Procedures
import Resumable.Proofs.Json.Files
import Resumable.Proofs.Machine.Dispatching
import Resumable.Proofs.Machine.DeadLocals
import Resumable.Proofs.Weave.Dropped
import Resumable.Proofs.Task.Lapses
import Resumable.Proofs.Weave.Recovery
import Resumable.Proofs.Machine.Finished
import Resumable.Proofs.Machine.Validated
import Resumable.Proofs.Task.Requests
import Resumable.Proofs.Task.Chronicle
import Resumable.Proofs.Machine.Attempts
import Resumable.Proofs.Machine.Deeds
import Resumable.Proofs.Machine.Uninterrupted
import Resumable.Proofs.Machine.Continuation
import Resumable.Proofs.Machine.ActsOnce
import Resumable.Proofs.Acyclic
import Resumable.Proofs.Classify.External
import Resumable.Proofs.Weave.Successors
import Resumable.Proofs.Machine.Stretch
import Resumable.Proofs.Classify.Duplicate
import Resumable.Proofs.Weave.Duplicate
import Resumable.Proofs.Task.Deals
import Resumable.Proofs.Task.Gate
import Resumable.Proofs.Task.Shutdown
import Resumable.Proofs.Machine.Arithmetic
import Resumable.Proofs.Task.Deadlines
import Resumable.Proofs.Procedure.Building
