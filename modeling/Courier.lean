import Courier.Proofs.Hub.Emission
import Courier.Proofs.Scenario.Isolation
import Courier.Proofs.Session.Ledger
import Courier.Scenario.Report
import Courier.Server.Settings
import Courier.Proofs.Session.Lifecycle
import Courier.Proofs.Framing
import Courier.Proofs.Hub.Removal
import Courier.Proofs.Session.Uninterrupted
import Courier.Proofs.Session.Wire
import Courier.Proofs.Streams
import Courier.Proofs.Hub.Sweeping
import Courier.Proofs.Connection.Heartbeat
import Courier.Proofs.Connection.Exchange
import Courier.Proofs.Connection.Transcript
import Courier.Proofs.Json.RoundTrip
import Courier.Proofs.Hub.Failure
import Courier.Proofs.Session.Admission
import Courier.Proofs.Scenario.Admission
import Courier.Proofs.Scenario.Traceless
import Courier.Proofs.Outlet
import Courier.Proofs.Hub.BulkRemoval
import Courier.Proofs.Scenario.Teardown
import Courier.Proofs.Scenario.Deadlines
import Courier.Proofs.Scenario.Capacity
import Courier.Proofs.Scenario.Opening
import Courier.Proofs.Hub.Blame
import Courier.Proofs.Scenario.Group
import Courier.Proofs.Json.Leniency
import Courier.Proofs.Server.Settings
