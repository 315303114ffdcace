import MediaBridge.About
import MediaBridge.Phase
import MediaBridge.Time
import MediaBridge.Timing
import MediaBridge.Decimal.Fixed
import MediaBridge.Text.Blank
import MediaBridge.Text.Hex
import MediaBridge.Text.Quoted
import MediaBridge.Table
import MediaBridge.Queue
import MediaBridge.Throttle
import MediaBridge.Rate
import MediaBridge.Health
import MediaBridge.Cancellation
import MediaBridge.Bus
import MediaBridge.Caps
import MediaBridge.Settings.Document
import MediaBridge.Buffer.Lock
import MediaBridge.Buffer.Pool
import MediaBridge.Buffer.Faulty
import MediaBridge.Boundary.Ingest
import MediaBridge.Boundary.Egress
import MediaBridge.Boundary.Recorder
import MediaBridge.Correspondence.Relay
import MediaBridge.Pipeline.Basic
import MediaBridge.Pipeline.Scripted
import MediaBridge.Pipeline.Worker
import MediaBridge.Pipeline.Loopback
import MediaBridge.Pipeline.Line
import MediaBridge.Supervisor.Traffic
import MediaBridge.Session
import MediaBridge.Demo.Run
import MediaBridge.Main
import MediaBridge.Proofs.Trail
import MediaBridge.Proofs.Correspondence.Ascending
import MediaBridge.Proofs.Buffer.Content
import MediaBridge.Proofs.Buffer.Copy
import MediaBridge.Proofs.Correspondence.Outcomes
import MediaBridge.Proofs.Correspondence.Calls
import MediaBridge.Proofs.Correspondence.History
import MediaBridge.Proofs.Correspondence.Interleaving
import MediaBridge.Proofs.Correspondence.InOrder
import MediaBridge.Proofs.Correspondence.Refusal
import MediaBridge.Proofs.Correspondence.Counting
import MediaBridge.Proofs.Correspondence.Watermark
import MediaBridge.Proofs.Correspondence.Bounds
import MediaBridge.Proofs.Correspondence.Samples
import MediaBridge.Proofs.Correspondence.Accounting
import MediaBridge.Proofs.Supervisor.Lifecycle
import MediaBridge.Proofs.Supervisor.Calls
import MediaBridge.Proofs.Supervisor.Gate
import MediaBridge.Proofs.Supervisor.Unread
import MediaBridge.Proofs.Supervisor.Spacing
import MediaBridge.Proofs.Supervisor.Screening
import MediaBridge.Proofs.Supervisor.Outlook
import MediaBridge.Proofs.Supervisor.Failed
import MediaBridge.Proofs.Supervisor.Stale
import MediaBridge.Proofs.Supervisor.Watchdog
import MediaBridge.Proofs.Supervisor.Load
import MediaBridge.Proofs.Supervisor.Station
import MediaBridge.Proofs.Supervisor.Isolation
import MediaBridge.Proofs.Supervisor.Handover
import MediaBridge.Proofs.Pipeline.Moves
import MediaBridge.Proofs.Supervisor.Mirror
import MediaBridge.Proofs.Buffer.Operations
import MediaBridge.Proofs.Buffer.Effects
import MediaBridge.Proofs.Boundary.QueuedBytes
import MediaBridge.Proofs.Queue.Capacity
import MediaBridge.Proofs.Buffer.Marks
import MediaBridge.Proofs.Correspondence.Lineup
import MediaBridge.Proofs.Queue.Order
import MediaBridge.Proofs.Boundary.Order
import MediaBridge.Proofs.Boundary.Idle
import MediaBridge.Proofs.Buffer.Holders
import MediaBridge.Proofs.Buffer.Access
import MediaBridge.Proofs.Buffer.Changes
import MediaBridge.Proofs.Buffer.Owners
import MediaBridge.Proofs.Buffer.Lending
import MediaBridge.Proofs.Buffer.Payloads
import MediaBridge.Proofs.Buffer.Places
import MediaBridge.Proofs.Buffer.Sharing
import MediaBridge.Proofs.Buffer.Sound
import MediaBridge.Proofs.Correspondence.Giveback
import MediaBridge.Proofs.Pipeline.Circuit
import MediaBridge.Proofs.Buffer.Footprint
import MediaBridge.Proofs.Pipeline.Copying
import MediaBridge.Proofs.Correspondence.Passing
import MediaBridge.Proofs.Supervisor.Conveyor
import MediaBridge.Proofs.Supervisor.Progress
import MediaBridge.Proofs.Supervisor.Results
import MediaBridge.Proofs.Correspondence.Matching
import MediaBridge.Proofs.Buffer.Duplicate
import MediaBridge.Proofs.Pipeline.Walks
import MediaBridge.Proofs.Pipeline.Serving
import MediaBridge.Proofs.Correspondence.Recurring
import MediaBridge.Proofs.Supervisor.Stamping
import MediaBridge.Proofs.Caps
import MediaBridge.Proofs.Json.Tokens
import MediaBridge.Proofs.Json.Grammar
import MediaBridge.Proofs.Settings.Loading
