import ScTransport.Protocol.Control
import ScTransport.Receiver.Reassembly
import ScTransport.Receiver.Retention
import ScTransport.Receiver.Panics
import ScTransport.Session.Completion
import ScTransport.Session.Retry
import ScTransport.Pipeline.Run
import ScTransport.Pipeline.Arrival
import ScTransport.Daemon.Destination
import ScTransport.Daemon.Queue
import ScTransport.Daemon.Order
import ScTransport.Daemon.Terminal
import ScTransport.Daemon.Requeue
import ScTransport.Daemon.Recovery
import ScTransport.Telemetry.Framing
import ScTransport.Telemetry.Metrics
import ScTransport.Telemetry.Readers
import ScTransport.Telemetry.Batch
import ScTransport.Telemetry.Congestion
import ScTransport.Telemetry.Fallback
import ScTransport.Telemetry.LossWindow
import ScTransport.Telemetry.Coalesce
import ScTransport.Adaptive.Budget
import ScTransport.Adaptive.Geometry
import ScTransport.Adaptive.Reorder
import ScTransport.Transport.KnownHosts
import ScTransport.Congestion.Filters
import ScTransport.Congestion.Phases
import ScTransport.Telemetry.CongestionRuns
import ScTransport.Telemetry.BatchDelivery
import ScTransport.Daemon.Answers
import ScTransport.Transport.Identity
import ScTransport.Autopilot.Plan
import ScTransport.Autopilot.DuplicateBudget
