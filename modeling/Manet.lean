import Manet.Format.Config
import Manet.Format.Params
import Manet.Format.Snapshot
import Manet.Host.Daemon
import Manet.Host.Network
import Manet.Host.Node
import Manet.Proofs.Deed
import Manet.Proofs.Footprint
import Manet.Proofs.ForwardingTable
import Manet.Proofs.Hosted
import Manet.Proofs.Timers
import Manet.Proofs.Validity
import Manet.Proofs.Derived
import Manet.Proofs.Unnoticed
import Manet.Proofs.RoundTrip
import Manet.Proofs.Stranded
import Manet.Proofs.LinkRoutes
import Manet.Proofs.Grammar
import Manet.Proofs.TwoHopNeighbours
import Manet.Proofs.Flooding
import Manet.Proofs.AdvertisedSet
import Manet.Proofs.RepeatedHello
import Manet.Proofs.ReorderedTc
import Manet.Proofs.OwnInterfaces
import Manet.Proofs.Emissions
import Manet.Proofs.RelaySignal
import Manet.Proofs.LinkOrigins
import Manet.Proofs.TwoWayLinks
import Manet.Proofs.Packing
import Manet.Proofs.LocalAddresses
import Manet.Proofs.PacketSizes
import Manet.Proofs.StoreRuns
import Manet.Proofs.JsonText
import Manet.Proofs.RouteChains
import Manet.Proofs.RouteLayers
import Manet.Proofs.RelayCover
import Manet.Proofs.JsonFormats
import Manet.Proofs.Horizons
import Manet.Proofs.Persistence
import Manet.Proofs.Flushing
import Manet.Proofs.TopologyUpdates
import Manet.Proofs.BestRelay
import Manet.Proofs.FailedHops
import Manet.Proofs.LinkTimes
import Manet.Proofs.HelloLinks
import Manet.Proofs.Strangers
import Manet.Proofs.Losses
import Manet.Proofs.WheelRuns
import Manet.Proofs.TimeCodes
import Manet.Proofs.Subnets
