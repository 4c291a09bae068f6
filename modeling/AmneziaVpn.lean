import AmneziaVpn.ByteOrder
import AmneziaVpn.DyadicCover
import AmneziaVpn.BacktrackingRegex
import AmneziaVpn.ShellScript
import AmneziaVpn.FilterChains
import AmneziaVpn.UndoLog
import AmneziaVpn.KotlinRuntime
import AmneziaVpn.IpAddress
import AmneziaVpn.IpRange
import AmneziaVpn.IpRangeSet
import AmneziaVpn.IpRangeSetRuns
import AmneziaVpn.Ipv6CanonicalForm
import AmneziaVpn.IpAddressText
import AmneziaVpn.InetNetwork
import AmneziaVpn.IpRangeSubnets
import AmneziaVpn.IpRangeCover
import AmneziaVpn.NetworkRoundTrip
import AmneziaVpn.IpRangeSetSubnets
import AmneziaVpn.AcceptedNetworks
import AmneziaVpn.ProtocolConfig
import AmneziaVpn.RouteFlattening
import AmneziaVpn.Wireguard
import AmneziaVpn.WireguardRoutes
import AmneziaVpn.RouteOrder
import AmneziaVpn.OpenVpnClient
import AmneziaVpn.OpenVpnReconnect
import AmneziaVpn.LinuxFirewall
import AmneziaVpn.LinuxFirewallLayout
import AmneziaVpn.LinuxFirewallEffects
import AmneziaVpn.LinuxFirewallInstall
import AmneziaVpn.LinuxKillSwitch
import AmneziaVpn.LinuxKillSwitchVerdicts
import AmneziaVpn.LinuxKillSwitchRuns
import AmneziaVpn.MozillaIpAddress
import AmneziaVpn.WeightedArbitration
import AmneziaVpn.WindowsFirewall
import AmneziaVpn.WindowsFirewallEffects
import AmneziaVpn.WindowsKillSwitchVerdicts
import AmneziaVpn.XrayRoutes
import AmneziaVpn.XrayCoverage
import AmneziaVpn.FallibleOps
import AmneziaVpn.Daemon
import AmneziaVpn.WireguardInterface
import AmneziaVpn.DaemonChannel
import AmneziaVpn.DaemonFrames
import AmneziaVpn.WireguardFrames
import AmneziaVpn.LinuxDaemon
import AmneziaVpn.LinuxDaemonProgram
import AmneziaVpn.LinuxExclusionRoutes
import AmneziaVpn.LinuxDaemonExclusions
import AmneziaVpn.LinuxEndpointRoute
import AmneziaVpn.LinuxDaemonRecovery
import AmneziaVpn.TunnelRoutes
import AmneziaVpn.SwitchedRoutes
import AmneziaVpn.MacosExclusionRoutes
import AmneziaVpn.RoutePrefixes
import AmneziaVpn.ExclusionBalance
import AmneziaVpn.ExclusionRuns
import AmneziaVpn.Base64
import AmneziaVpn.QtText
import AmneziaVpn.QtRuntime
import AmneziaVpn.QtJson
import AmneziaVpn.ShareLinks
import AmneziaVpn.VmessLinks
import AmneziaVpn.ShadowsocksLinks
import AmneziaVpn.ImportController
import AmneziaVpn.ExportController
import AmneziaVpn.ExportedLinks
import AmneziaVpn.QrSeries
import AmneziaVpn.LinkServers
import AmneziaVpn.LinkContract
import AmneziaVpn.LinkDelivery
import AmneziaVpn.VmessCalls
import AmneziaVpn.Pieces
import AmneziaVpn.QtStringLists
import AmneziaVpn.ServerController
import AmneziaVpn.WireguardServerConfig
import AmneziaVpn.WireguardSections
import AmneziaVpn.WireguardClients
import AmneziaVpn.WireguardClientRuns
import AmneziaVpn.ListErasure
import AmneziaVpn.RevokedConfig
import AmneziaVpn.SshReads
import AmneziaVpn.RevocationRuns
import AmneziaVpn.Administrators
import AmneziaVpn.LiveClients
import AmneziaVpn.AdministratorSteps
import AmneziaVpn.SerialAdministrators
import AmneziaVpn.ServersModel
import AmneziaVpn.SecureQSettings
import AmneziaVpn.ApplicationSettings
import AmneziaVpn.ServersStore
import AmneziaVpn.BackupRestore
import AmneziaVpn.LocalSocketController
import AmneziaVpn.ActivateMessage
import AmneziaVpn.AllowedIpRoutes
import AmneziaVpn.Routers
import AmneziaVpn.SiteRoutes
import AmneziaVpn.SitesController
import AmneziaVpn.ApiController
import AmneziaVpn.TelegramReply
import AmneziaVpn.ConnectionController
import AmneziaVpn.ConnectionInputs
import AmneziaVpn.ConnectionJobs
import AmneziaVpn.JobPoints
import AmneziaVpn.LastRequest
import AmneziaVpn.OpenVpnProtocol
import AmneziaVpn.OpenVpnManagement
import AmneziaVpn.Binary64
import AmneziaVpn.QtBytes
import AmneziaVpn.PeerStatusReply
import AmneziaVpn.DaemonSignals
import AmneziaVpn.TerminatedLines
import AmneziaVpn.WireguardConf
import AmneziaVpn.LineReaders
import AmneziaVpn.NetworkTexts
import AmneziaVpn.FirstMaximum
import AmneziaVpn.WindowsRouteMonitor
import AmneziaVpn.RunInvariants
import AmneziaVpn.HandshakePolls
import AmneziaVpn.EventLoop
import AmneziaVpn.LinuxCommands
import AmneziaVpn.LinuxGatewayRoutes
import AmneziaVpn.LinuxSearchDomains
import AmneziaVpn.MacosResolvers
import AmneziaVpn.MacosDaemonResolvers
import AmneziaVpn.WindowsPeerRanges
import AmneziaVpn.WindowsFirewallRecords
import AmneziaVpn.WindowsFirewallFailures
import AmneziaVpn.EntryTables
import AmneziaVpn.WindowsSplitTunnel
import AmneziaVpn.ApiReplies
import AmneziaVpn.ConnectionEvents
import AmneziaVpn.MixedQrSeries
import AmneziaVpn.ShadowsocksExport
import AmneziaVpn.ImportedTexts
import AmneziaVpn.PeerSections
import AmneziaVpn.OpenVpnRemote
import AmneziaVpn.WireguardTexts
import AmneziaVpn.ApiImports
import AmneziaVpn.ContainerFiles
import AmneziaVpn.ScriptVariables
import AmneziaVpn.Scripts
import AmneziaVpn.ServerNames
import AmneziaVpn.SettingsCache
