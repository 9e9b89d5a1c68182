import Heimdallr.Basic
import Heimdallr.Lib.Prog
import Heimdallr.Lib.While
import Heimdallr.Lib.Run
import Heimdallr.Core.Cache
import Heimdallr.Core.Filter
import Heimdallr.Resolver.Effects
import Heimdallr.Resolver.Dns64
import Heimdallr.Resolver.QnameMin
import Heimdallr.Resolver.Forward
import Heimdallr.Resolver.ForwardSpec
import Heimdallr.Resolver.Paths
import Heimdallr.Resolver.Writers
import Heimdallr.Resolver.Blocking
import Heimdallr.Resolver.System
import Heimdallr.Resolver.Safety
import Heimdallr.Resolver.Protections
import Heimdallr.Net.Stream
import Heimdallr.Net.Addr
import Heimdallr.Net.Proxy
import Heimdallr.Net.Tcp
import Heimdallr.Zone.Secondary
import Heimdallr.Zone.Transfer
import Heimdallr.Core.Persist
import Heimdallr.Core.Recency
import Heimdallr.Net.Startup
import Heimdallr.Zone.Record
import Heimdallr.Zone.RecordEdits
import Heimdallr.Lib.ReadModifyWrite
import Heimdallr.Zone.Concurrent
import Heimdallr.Core.CacheSpec
import Heimdallr.Resolver.Ttl
import Heimdallr.Core.Blocklist
import Heimdallr.Core.QueryLog
import Heimdallr.Net.Connection
import Heimdallr.Core.PerClient
import Heimdallr.Lib.Check
import Heimdallr.Config
import Heimdallr.Zone.Load
import Heimdallr.Resolver.FromConfig
import Heimdallr.Net.Cert
import Heimdallr.Net.CheckConfig
import Heimdallr.Core.Accounting
import Heimdallr.Resolver.Faults
import Heimdallr.Resolver.Dname
import Heimdallr.Resolver.Dns64Spec
import Heimdallr.Zone.Listing
import Heimdallr.Zone.Findable
import Heimdallr.Zone.Posting
import Heimdallr.Core.Suffixes
import Heimdallr.Core.Policy
import Heimdallr.Core.Decision
import Heimdallr.Lib.Words
import Heimdallr.Net.AddrSpec
import Heimdallr.Core.HostsLines
import Heimdallr.Core.MetaLists
import Heimdallr.Resolver.QnameCost
import Heimdallr.Zone.Notify
import Heimdallr.Core.Subnets
import Heimdallr.Resolver.PeelLabels
import Heimdallr.Net.ProxyGrammar
import Heimdallr.Net.AddrText
import Heimdallr.Net.ProxyText
import Heimdallr.Resolver.NameServers
import Heimdallr.Lib.Escapes
import Heimdallr.Zone.KeyPaths
import Heimdallr.Zone.KeyStore
import Heimdallr.Zone.NameText
import Heimdallr.Zone.Rname
import Heimdallr.Zone.OwnerText
import Heimdallr.Zone.Catalog
import Heimdallr.Zone.CatalogSync
import Heimdallr.Core.CacheShelf
import Heimdallr.Lib.Cost
import Heimdallr.Resolver.Workload
import Heimdallr.Net.Lives
import Heimdallr.Resolver.Prefetching
import Heimdallr.Lib.Footprint
import Heimdallr.Zone.Api
import Heimdallr.Zone.Runs
import Heimdallr.Core.Metrics
import Heimdallr.Resolver.Totals
import Heimdallr.Lib.Growth
import Heimdallr.Lib.InTurn
import Heimdallr.Lib.Numerals
import Heimdallr.Zone.WellFormed
