import CallSweep.Call.Sweep
import CallSweep.Command.Program
import CallSweep.Diff.Unified
import CallSweep.Disk.Operations
import CallSweep.Extensions
import CallSweep.Main
import CallSweep.Report
import CallSweep.Run.World
import CallSweep.Settings.Load
import CallSweep.Walk
import CallSweep.Proofs.Call.Bounds
import CallSweep.Proofs.Call.Bytewise.Search
import CallSweep.Proofs.Call.Depth
import CallSweep.Proofs.Call.Grammar
import CallSweep.Proofs.Call.Pieces
import CallSweep.Proofs.Call.PlainScan
import CallSweep.Proofs.Call.Position
import CallSweep.Proofs.Call.Priority
import CallSweep.Proofs.Call.Seams
import CallSweep.Proofs.Call.Settling
import CallSweep.Proofs.Call.Splitting
import CallSweep.Proofs.Command.Outcome
import CallSweep.Proofs.Diff.Preview
import CallSweep.Proofs.Disk.Beside
import CallSweep.Proofs.Disk.Calls
import CallSweep.Proofs.Disk.FileName
import CallSweep.Proofs.Extensions
import CallSweep.Proofs.Run.Faults
import CallSweep.Proofs.Run.Interleaving
import CallSweep.Proofs.Run.Ledger
import CallSweep.Proofs.Run.Ownership
import CallSweep.Proofs.Run.Requests
import CallSweep.Proofs.Run.Scripts
import CallSweep.Proofs.Run.Trace
import CallSweep.Proofs.Run.Veil
import CallSweep.Proofs.Settings.Canonical
import CallSweep.Proofs.Settings.Layers
import CallSweep.Proofs.Settings.Resolved
import CallSweep.Proofs.Source
import CallSweep.Proofs.Source.Admission
import CallSweep.Proofs.Source.Amid
import CallSweep.Proofs.Source.Atomic
import CallSweep.Proofs.Source.Reread
import CallSweep.Proofs.Text.Trimming
import CallSweep.Proofs.Walk.Account
import CallSweep.Proofs.Walk.Balance
import CallSweep.Proofs.Walk.File
import CallSweep.Proofs.Walk.Finds
import CallSweep.Proofs.Walk.Forecast
import CallSweep.Proofs.Walk.Handed
import CallSweep.Proofs.Walk.Leads
import CallSweep.Proofs.Walk.Parts
import CallSweep.Proofs.Walk.Seemly
import CallSweep.Proofs.Walk.Sweeping
import CallSweep.Proofs.Walk.Tree
import CallSweep.Proofs.Walk.Untouched
import CallSweep.Proofs.Walk.Visits
