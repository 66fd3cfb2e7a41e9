import TaskDiscovery.CardDb.Arrival
import TaskDiscovery.CardDb.Backlog
import TaskDiscovery.CardDb.Cs
import TaskDiscovery.CardDb.Fares
import TaskDiscovery.CardDb.Pa
import TaskDiscovery.CardDb.Pctr
import TaskDiscovery.CardDb.Reporting
import TaskDiscovery.CardDb.Restitution
import TaskDiscovery.CardDb.Seeding
import TaskDiscovery.CardDb.Statements
import TaskDiscovery.CardDb.TokenFares
import TaskDiscovery.CardDb.Tokens
import TaskDiscovery.Client.Calls
import TaskDiscovery.Client.Packets
import TaskDiscovery.Client.Proxy
import TaskDiscovery.Client.Transports
import TaskDiscovery.Dht.Bootstrap
import TaskDiscovery.Dht.Churn
import TaskDiscovery.Dht.Convergence
import TaskDiscovery.Dht.Expiry
import TaskDiscovery.Dht.Find
import TaskDiscovery.Dht.Identifier
import TaskDiscovery.Dht.Membership
import TaskDiscovery.Dht.Message
import TaskDiscovery.Dht.Network
import TaskDiscovery.Dht.Placement
import TaskDiscovery.Dht.QueryRotation
import TaskDiscovery.Dht.ReadYourWrites
import TaskDiscovery.Dht.Redirects
import TaskDiscovery.Dht.Replicas
import TaskDiscovery.Dht.Responsibility
import TaskDiscovery.Dht.Routines
import TaskDiscovery.Dht.Search
import TaskDiscovery.Dht.Store
import TaskDiscovery.Dht.Table
import TaskDiscovery.Dht.WorkList
import TaskDiscovery.Firewall.Indexed
import TaskDiscovery.Firewall.Loading
import TaskDiscovery.Firewall.Reload
import TaskDiscovery.Firewall.Rules
import TaskDiscovery.Go.Buffers
import TaskDiscovery.Go.Cidr
import TaskDiscovery.Go.Json.Grammar
import TaskDiscovery.Go.Json.Locality
import TaskDiscovery.Go.Json.Records
import TaskDiscovery.Go.Json.RoundTrip
import TaskDiscovery.Go.Json.Truncation
import TaskDiscovery.Go.Net
import TaskDiscovery.Go.Search
import TaskDiscovery.Go.Strings
import TaskDiscovery.Go.Time
import TaskDiscovery.Go.Url
import TaskDiscovery.Lib.Nearest
import TaskDiscovery.Lib.Pairing
import TaskDiscovery.Lib.RangeMap
import TaskDiscovery.Lib.Rotation
import TaskDiscovery.Lib.Rows
import TaskDiscovery.Lib.Run
import TaskDiscovery.Lib.Sha256
import TaskDiscovery.Lib.SharedCursor
import TaskDiscovery.Lib.Upsert
import TaskDiscovery.Registry.Acknowledged
import TaskDiscovery.Registry.Balancers
import TaskDiscovery.Registry.CacheBound
import TaskDiscovery.Registry.Completeness
import TaskDiscovery.Registry.Effects
import TaskDiscovery.Registry.Entry
import TaskDiscovery.Registry.Expiry
import TaskDiscovery.Registry.Fallback
import TaskDiscovery.Registry.InstanceCounts
import TaskDiscovery.Registry.Interleaving
import TaskDiscovery.Registry.Memory
import TaskDiscovery.Registry.Outcomes
import TaskDiscovery.Registry.Permissive
import TaskDiscovery.Registry.QueryCounts
import TaskDiscovery.Registry.Refusal
import TaskDiscovery.Registry.Representation
import TaskDiscovery.Registry.Rotation
import TaskDiscovery.Registry.SharedStore
import TaskDiscovery.Registry.Starvation
import TaskDiscovery.Registry.StoreBacked
import TaskDiscovery.Registry.TotalQueries
import TaskDiscovery.Registry.Twins
import TaskDiscovery.Registry.Warming
import TaskDiscovery.Station.Agreement
import TaskDiscovery.Station.BackOffice
import TaskDiscovery.Station.Computer
import TaskDiscovery.Station.Forwarding
import TaskDiscovery.Station.Gate
import TaskDiscovery.Station.Manifests
import TaskDiscovery.Station.Resolving
import TaskDiscovery.Store.Balancer
import TaskDiscovery.Store.Postgres
import TaskDiscovery.Transport.Availability
import TaskDiscovery.Transport.Connections
import TaskDiscovery.Transport.Lifecycle
import TaskDiscovery.Transport.Messages
import TaskDiscovery.Transport.NonLeak
import TaskDiscovery.Transport.Startup
import TaskDiscovery.Transport.Statuses
import TaskDiscovery.Transport.Wire
