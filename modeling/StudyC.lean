import StudyC.Lib.Runs
import StudyC.Lib.Refinement
import StudyC.Lib.AtomicObject
import StudyC.Lib.Fairness
import StudyC.Lib.Mailboxes
import StudyC.Lib.Resources
import StudyC.Lib.CString
import StudyC.Lib.Codec
import StudyC.Lib.Decimal
import StudyC.Lib.SlotTable
import StudyC.Lib.KeyedList
import StudyC.Lib.RunningAverage
import StudyC.Lib.Tally
import StudyC.Lib.Appends
import StudyC.Lib.Text.Json
import StudyC.Lib.Text.JsonInversion
import StudyC.Common.Logger
import StudyC.Common.Accounting
import StudyC.Common.Message
import StudyC.Common.Concurrent
import StudyC.Mgmt.Protocol
import StudyC.Mgmt.Messages
import StudyC.Mgmt.Registry
import StudyC.Mgmt.RegistryCalls
import StudyC.Mgmt.RegistryMap
import StudyC.Mgmt.RegistryRuns
import StudyC.Mgmt.LongNames
import StudyC.Mgmt.Interleaving
import StudyC.Mgmt.NameReads
import StudyC.Mgmt.Statistics
import StudyC.Mgmt.Listing
import StudyC.Mgmt.ListingJson
import StudyC.Mgmt.Socket
import StudyC.Mgmt.SocketStats
import StudyC.Mgmt.Observations
import StudyC.Mgmt.ProcessAll
import StudyC.Mgmt.Outcomes
import StudyC.Mgmt.Handlers
import StudyC.Mgmt.Latency
import StudyC.Mgmt.Elapsed
import StudyC.Mgmt.Worker
import StudyC.Ctl.Send
import StudyC.Ctl.Concurrent
import StudyC.Ctl.Main
import StudyC.Ctl.Wire
import StudyC.Ctl.Session
import StudyC.Metrics.Collector
import StudyC.Metrics.Latency
import StudyC.Metrics.Export
import StudyC.Router.System
import StudyC.Router.Events
import StudyC.Router.Shutdown
import StudyC.Router.Lifetimes
import StudyC.Router.Management
import StudyC.Router.WayOut
import StudyC.Router.Termination
import StudyC.Collector.Startup
import StudyC.Collector.Loop
import StudyC.Collector.Served
import StudyC.Viewer.System
import StudyC.Viewer.Invariant
import StudyC.Viewer.Shutdown
import StudyC.Viewer.Killable
import StudyC.Viewer.Teardown
import StudyC.Viewer.Termination
import StudyC.Shm.Api
import StudyC.Shm.Attach
import StudyC.Shm.Lock
import StudyC.Shm.Atomic
import StudyC.Shm.Linear
import StudyC.Relay.Frame
import StudyC.Relay.Framing
import StudyC.Relay.Handoff
import StudyC.Relay.Pipeline
import StudyC.Relay.Delivery
import StudyC.Viewer.Clients
import StudyC.CleanUp
