import Iroh.Docs.Isolation
import Iroh.Docs.Reconcile
import Iroh.Docs.SnapshotRoundTrip
import Iroh.Docs.LiveDownloads
import Iroh.Docs.CoalescedSync
import Iroh.Docs.Watcher
import Iroh.Blobs.ServeGet
import Iroh.Blobs.CollectRace
import Iroh.Blobs.TagFile
import Iroh.Blobs.Downloader
import Iroh.GossipProto.Retention
import Iroh.GossipProto.PendingNeighbor
import Iroh.Postcard.RoundTrip
import Iroh.Qng.KeyPhases
import Iroh.Qng.KeyUpdates
import Iroh.Qng.BytesInFlight
import Iroh.Qng.PathControl
import Iroh.Qng.Migration
import Iroh.Qng.LatePackets
import Iroh.Qng.RouteMigration
import Iroh.Qng.NatAddressLimit
import Iroh.Qng.NatPaths
import Iroh.Gossip.Outputs
import Iroh.Gossip.StreamOrder
import Iroh.Socket.IdlePaths
import Iroh.Socket.ClosedConns
import Iroh.Socket.NatCandidates
import Iroh.Socket.RelayRoutes
import Iroh.Socket.HomeRelay
import Iroh.Socket.HomeStatus
import Iroh.Endpoint.NetReports
import Iroh.Endpoint.DialedAddrs
import Iroh.Endpoint.KeptOutcomes
import Iroh.Blobs.Observed
import Iroh.Blobs.RangeDownload
import Iroh.Endpoint.Listener
import Iroh.Relay.Versions
import Iroh.Relay.Departures
import Iroh.Dns.Resolve
import Iroh.Socket.PathSelector
import Iroh.Qng.PathNonce
import Iroh.Docs.Heads
import Iroh.Endpoint.Ticket
import Iroh.Endpoint.Admissions
import Iroh.Blobs.Collection
import Iroh.Socket.Prune
import Iroh.Gossip.Subscriber
import Iroh.Relay.QueuedBytes
import Iroh.Endpoint.DialAny
