import Handover.Agent.Name
import Handover.Agent.Place
import Handover.Agent.Step
import Handover.Audit
import Handover.Buffer
import Handover.CommandLine.Grammar
import Handover.CommandLine.Parse
import Handover.Config
import Handover.Event
import Handover.Fault
import Handover.Item
import Handover.Lock.Latch
import Handover.Lock.Mutex
import Handover.Main
import Handover.Monitor.Action
import Handover.Monitor.Basic
import Handover.Monitor.Note
import Handover.Monitor.State
import Handover.Phase
import Handover.Program.Checker
import Handover.Program.Folder
import Handover.Program.Job
import Handover.Program.Runner
import Handover.Proofs.Acceptance
import Handover.Proofs.Backlog
import Handover.Proofs.Budget
import Handover.Proofs.Census
import Handover.Proofs.Chronicle
import Handover.Proofs.Coherence
import Handover.Proofs.Consistency
import Handover.Proofs.Deed
import Handover.Proofs.Gate
import Handover.Proofs.Insertions
import Handover.Proofs.Journal
import Handover.Proofs.Ledger
import Handover.Proofs.Order
import Handover.Proofs.Outcome
import Handover.Proofs.Permits
import Handover.Proofs.Progress
import Handover.Proofs.Refusal
import Handover.Proofs.Release
import Handover.Proofs.Ring
import Handover.Proofs.RoundTrip
import Handover.Proofs.Shortfall
import Handover.Proofs.Soundness
import Handover.Proofs.Stakes
import Handover.Proofs.Standing
import Handover.Proofs.Turn
import Handover.Proofs.Underway
import Handover.ReturnCode
import Handover.Run.Launch
import Handover.Run.Report
import Handover.Slot.Basic
import Handover.Slot.Desk
import Handover.Slot.Semaphore
import Handover.System
import Handover.Text.Numeral
import Handover.Text.Terminal
import Handover.Text.Utf8
import Handover.Trace.Read
import Handover.Trace.Table
import Handover.Trace.Write
import Handover.Word
import Handover.Proofs.Frozen
import Handover.Proofs.Tampering
import Handover.Proofs.Headroom
import Handover.Proofs.Muster
import Handover.Proofs.Blame
import Handover.Proofs.FalseStart
import Handover.Proofs.Conservation
import Handover.Proofs.Fifo
import Handover.Proofs.Overflow
import Handover.Proofs.Wakeup
