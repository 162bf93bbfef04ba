import PidtreeBcc.Support.Dict
import PidtreeBcc.Support.LongestMatch
import PidtreeBcc.Support.Overwrite
import PidtreeBcc.Support.BoundedMap
import PidtreeBcc.Support.Run
import PidtreeBcc.Support.Calls
import PidtreeBcc.Support.Effects
import PidtreeBcc.Support.Tally
import PidtreeBcc.Filtering.Rules
import PidtreeBcc.Filtering.PortMap
import PidtreeBcc.Filtering.IntsetMap
import PidtreeBcc.Filtering.Keys
import PidtreeBcc.Filtering.PortRanges
import PidtreeBcc.Udp.Sessions
import PidtreeBcc.Udp.Kernel
import PidtreeBcc.Udp.Expiration
import PidtreeBcc.Udp.Conservation
import PidtreeBcc.Udp.ExpirationRace
import PidtreeBcc.Containers.Monitor
import PidtreeBcc.Config.StaticConf
import PidtreeBcc.Config.Parse
import PidtreeBcc.Config.Process
import PidtreeBcc.Config.Restart
import PidtreeBcc.Filtering.NetFilter
import PidtreeBcc.Filtering.Reload
import PidtreeBcc.Probes.HotSwap
import PidtreeBcc.Probes.Capacity
import PidtreeBcc.Probes.PortFilters
import PidtreeBcc.Probes.FailedReload
import PidtreeBcc.Probes.InitialLoad
import PidtreeBcc.Udp.ConcurrentSends
import PidtreeBcc.Config.Delivery
import PidtreeBcc.Containers.Lookups
import PidtreeBcc.Containers.Coverage
import PidtreeBcc.Containers.SecondTry
import PidtreeBcc.YamlLoader.Loader
import PidtreeBcc.YamlLoader.RemoteInclude
import PidtreeBcc.YamlLoader.RestartedFetcher
import PidtreeBcc.Plugins.Sourceipmap
import PidtreeBcc.Filtering.GlitchFree
import PidtreeBcc.NetListen.Kernel
import PidtreeBcc.NetListen.Snapshot
import PidtreeBcc.YamlLoader.Include
import PidtreeBcc.YamlLoader.Expansion
import PidtreeBcc.YamlLoader.Construct
import PidtreeBcc.YamlLoader.StopFlag
import PidtreeBcc.Support.Rounds
import PidtreeBcc.YamlLoader.FailingUrls
import PidtreeBcc.Containers.LabelPatterns
import PidtreeBcc.Plugins.HostsFormat
import PidtreeBcc.YamlLoader.RemoteFetch
import PidtreeBcc.Support.TrackedCalls
import PidtreeBcc.Tcp.Kernel
import PidtreeBcc.Plugins.Pipeline
import PidtreeBcc.Tcp.Events
import PidtreeBcc.Probes.ProcessTree
import PidtreeBcc.Main.Orphans
import PidtreeBcc.Main.Watchdogs
import PidtreeBcc.Main.Restarts
import PidtreeBcc.Main.Output
import PidtreeBcc.Probes.LiveReload
import PidtreeBcc.Support.Lag
import PidtreeBcc.Udp.Records
import PidtreeBcc.Probes.Polling
import PidtreeBcc.Plugins.LoadPlugins
import PidtreeBcc.Containers.Names
import PidtreeBcc.Tcp.FromFile
import PidtreeBcc.Support.Json
import PidtreeBcc.Support.JsonLoads
import PidtreeBcc.Support.JsonRoundTrip
import PidtreeBcc.Main.Lines
import PidtreeBcc.Support.Cover
import PidtreeBcc.Filtering.Agreement
import PidtreeBcc.YamlLoader.ConfigFile
