import LipSync.Binary64.Basic
import LipSync.Binary64.Arithmetic
import LipSync.Binary64.Order
import LipSync.Binary64.Bits
import LipSync.Binary64.Decimal
import LipSync.Clock.MediaTime
import LipSync.Clock.Instant
import LipSync.Clock.NtpTime
import LipSync.Clock.Report
import LipSync.Clock.History
import LipSync.Note
import LipSync.SyncError
import LipSync.Reception
import LipSync.Skew
import LipSync.Playout.Delays
import LipSync.Playout.Compensator
import LipSync.Pipeline.Request
import LipSync.Pipeline.Dialogue
import LipSync.Synchronizer.Session
import LipSync.Synchronizer.Basic
import LipSync.Synchronizer.Command
import LipSync.Proofs.Binary64.Comparison
import LipSync.Proofs.Binary64.Rounding
import LipSync.Proofs.Binary64.Monotonicity
import LipSync.Proofs.Binary64.Magnitude
import LipSync.Proofs.Clock.Growth
import LipSync.Proofs.Clock.Repetition
import LipSync.Proofs.Clock.Mapping
import LipSync.Proofs.Clock.NtpTime
import LipSync.Proofs.Clock.ReportOrder
import LipSync.Proofs.Playout.Step
import LipSync.Proofs.Playout.Range
import LipSync.Proofs.Playout.Settling
import LipSync.Proofs.Pipeline.Answers
import LipSync.Proofs.Pipeline.Order
import LipSync.Proofs.Reception
import LipSync.Proofs.Synchronizer.Cycle
import LipSync.Proofs.Synchronizer.Runs
import LipSync.Proofs.Synchronizer.Skipping
import LipSync.Proofs.Synchronizer.Carried
import LipSync.Proofs.Clock.Resumption
import LipSync.Proofs.Pipeline.Coupling
import LipSync.Proofs.Synchronizer.Likeness
import LipSync.Proofs.Clock.Offset
import LipSync.Proofs.Synchronizer.Offsets
import LipSync.Proofs.Clock.Eviction
import LipSync.Proofs.Synchronizer.Capacity
import LipSync.Proofs.Playout.Noise
import LipSync.Proofs.Playout.Limits
import LipSync.Proofs.Skew
import LipSync.Proofs.Finiteness
import LipSync.Proofs.Synchronizer.Binding
import LipSync.Proofs.Synchronizer.Moving
import LipSync.Proofs.Synchronizer.Rebinding
import LipSync.Proofs.Playout.Refusal
import LipSync.Proofs.Clock.Restart
import LipSync.Proofs.Synchronizer.Poisoning
import LipSync.Proofs.Synchronizer.Schedule
