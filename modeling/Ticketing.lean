import Ticketing.Commands.SeatRuns
import Ticketing.Commands.QueueExpiry
import Ticketing.Commands.QueueRuns
import Ticketing.Commands.SeatIsolation
import Ticketing.Commands.Lifetimes
import Ticketing.Commands.Records
import Ticketing.Server.Streams
import Ticketing.Server.Stopping
import Ticketing.Server.Durability
import Ticketing.Server.ErrorReplies
import Ticketing.TicketingApi.Payments
import Ticketing.AppServer.ReplyPairing
import Ticketing.AppServer.ReplyChunks
import Ticketing.AppServer.Retries
import Ticketing.AppServer.SaleRuns
import Ticketing.AppServer.HoldRuns
import Ticketing.AppServer.HoldFailures
import Ticketing.AppServer.PassItems
import Ticketing.AppServer.Passes
import Ticketing.AppServer.PassFaults
import Ticketing.AppServer.Expiries
import Ticketing.AppServer.Releases
import Ticketing.AppServer.PassReleases
import Ticketing.AppServer.Convergence
import Ticketing.TicketingApi.Failures
import Ticketing.TicketingApi.Resubmission
import Ticketing.AppServer.Verdicts
import Ticketing.Server.Recovery
import Ticketing.AppServer.Wire
import Ticketing.AppServer.OrchestrationLog
import Ticketing.AppServer.TruthfulLog
import Ticketing.TicketingApi.Connections
import Ticketing.TicketingApi.Races
import Ticketing.AppServer.Revenue
import Ticketing.AppServer.Listings
import Ticketing.AppServer.QueueFlows
import Ticketing.Client.Tally
import Ticketing.Client.DemoWire
