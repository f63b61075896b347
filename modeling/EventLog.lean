import EventLog.Text.Quoted
import EventLog.Event.Basic
import EventLog.Event.InlineText
import EventLog.Event.Layout
import EventLog.Names
import EventLog.Json
import EventLog.Line.Token
import EventLog.Line.Sink
import EventLog.Text.Decimal
import EventLog.Fault
import EventLog.Config
import EventLog.Diagnostic
import EventLog.Transport.Pool
import EventLog.Transport.Queue
import EventLog.Transport.Slots
import EventLog.Delivery.Writer
import EventLog.Delivery.Publisher
import EventLog.Delivery.FileTree
import EventLog.Engine.Shared
import EventLog.Engine.Worker
import EventLog.Engine.Basic
import EventLog.Rehearsal.Recorder
import EventLog.Rehearsal.Basic
import EventLog.Interleaving.Calls
import EventLog.Interleaving.PoolThreads
import EventLog.Interleaving.QueueThreads
import EventLog.Interleaving.EngineThreads
import EventLog.Proofs.Engine.Inventory
import EventLog.Proofs.Engine.Ledger
import EventLog.Proofs.Engine.Simulation
import EventLog.Proofs.Engine.History
import EventLog.Proofs.Engine.BoundedBuffer
import EventLog.Proofs.Engine.Refusal
import EventLog.Proofs.Engine.Accounting
import EventLog.Proofs.Engine.Places
import EventLog.Proofs.Text.Decimal
import EventLog.Proofs.Text.Quoted
import EventLog.Proofs.Line.Rendered
import EventLog.Proofs.Line.EventMessage
import EventLog.Proofs.Transport.PoolLending
import EventLog.Proofs.Transport.PopSteps
import EventLog.Proofs.Transport.QueueFamily
import EventLog.Proofs.Engine.Custody
import EventLog.Proofs.Engine.Lifetime
import EventLog.Proofs.Json.Reader
import EventLog.Proofs.Line.PushedFields
import EventLog.Proofs.Event.Equality
import EventLog.Proofs.Line.DistinctLines
import EventLog.Proofs.Delivery.LineStream
import EventLog.Proofs.Interleaving.PoolSharing
import EventLog.Proofs.Interleaving.PoolRuns
import EventLog.Proofs.Interleaving.QueuePath
import EventLog.Proofs.Interleaving.QueueSharing
import EventLog.Proofs.Interleaving.QueueRuns
import EventLog.Proofs.Interleaving.EngineHandshake
import EventLog.Proofs.Interleaving.EngineRecords
import EventLog.Proofs.Interleaving.EngineEvents
import EventLog.Proofs.Interleaving.EngineAccount
import EventLog.Proofs.Interleaving.EngineRuns
import EventLog.Proofs.Line.Cut
import EventLog.Proofs.Transport.PoolMisuse
import EventLog.Proofs.Line.Reading
import EventLog.Proofs.Line.NamedObject
import EventLog.Proofs.Event.StoredText
import EventLog.Proofs.Line.OnePass
import EventLog.Proofs.Config.Overlay
import EventLog.Proofs.Delivery.ShortWrites
import EventLog.Proofs.Interleaving.EngineCalls
