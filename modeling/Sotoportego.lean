import Sotoportego.Lib.Octets
import Sotoportego.Lib.SlidingWindow
import Sotoportego.WireGuard.Crypto
import Sotoportego.WireGuard.Peer
import Sotoportego.WireGuard.Transparent
import Sotoportego.WireGuard.HandshakeProperties
import Sotoportego.WireGuard.ReplayProperties
import Sotoportego.Lib.Run
import Sotoportego.Lib.Service
import Sotoportego.WireGuard.Channel
import Sotoportego.WireGuard.ChannelProperties
import Sotoportego.WireGuard.Link
import Sotoportego.WireGuard.LinkProperties
import Sotoportego.Lib.SealLog
import Sotoportego.WireGuard.Transcript
import Sotoportego.WireGuard.TranscriptProperties
import Sotoportego.WireGuard.NonceProperties
import Sotoportego.Lib.CText
import Sotoportego.Tailscale.Json
import Sotoportego.Lib.Table
import Sotoportego.Tailscale.Netmap
import Sotoportego.Tailscale.NetmapProperties
import Sotoportego.Lib.Marks
import Sotoportego.Tailscale.PeerSet
import Sotoportego.Tailscale.PeerSetProperties
import Sotoportego.Tailscale.DataPlane
import Sotoportego.Tailscale.SessionProperties
import Sotoportego.Tailscale.DataPlaneProperties
import Sotoportego.Tailscale.LifetimeProperties
import Sotoportego.Tailscale.DemuxProperties
import Sotoportego.Tailscale.AnswerProperties
import Sotoportego.Lib.Reconciler
import Sotoportego.Tailscale.ReconcileProperties
import Sotoportego.Tailscale.MagicDns
import Sotoportego.Tailscale.MagicDnsProperties
import Sotoportego.Lib.Edits
import Sotoportego.Tailscale.Routes
import Sotoportego.Tailscale.RoutesProperties
import Sotoportego.Tailscale.ExitNodeProperties
import Sotoportego.Tailscale.ForwardingProperties
import Sotoportego.Tailscale.SessionState
import Sotoportego.Tailscale.ListingProperties
import Sotoportego.Tailscale.SectionProperties
import Sotoportego.Tailscale.SessionStateProperties
import Sotoportego.Tailscale.Disco
import Sotoportego.Tailscale.PathProperties
import Sotoportego.Tailscale.DiscoProperties
import Sotoportego.Tailscale.FallbackProperties
import Sotoportego.Lib.Deliveries
import Sotoportego.Tailscale.ControlConn
import Sotoportego.Tailscale.Http2
import Sotoportego.Tailscale.ControlConnProperties
import Sotoportego.Tailscale.Http2Properties
import Sotoportego.Tailscale.ReassemblyProperties
import Sotoportego.Tailscale.ControlClient
import Sotoportego.Tailscale.ControlClientProperties
import Sotoportego.Lib.PrefixCode
import Sotoportego.Tailscale.Hpack
import Sotoportego.Tailscale.HpackProperties
import Sotoportego.Tailscale.Http2Client
import Sotoportego.Tailscale.Http2ClientProperties
import Sotoportego.Tailscale.MapStream
import Sotoportego.Tailscale.MapStreamProperties
import Sotoportego.Tailscale.JsonProperties
import Sotoportego.Tailscale.Register
import Sotoportego.Tailscale.RegisterProperties
import Sotoportego.Tailscale.RequestBodyProperties
import Sotoportego.Tailscale.Noise
import Sotoportego.Tailscale.NoiseProperties
import Sotoportego.Tailscale.Derp
import Sotoportego.Tailscale.DerpProperties
import Sotoportego.Tailscale.DerpReader
import Sotoportego.Tailscale.DerpReaderProperties
import Sotoportego.Tailscale.BackoffProperties
import Sotoportego.WireGuard.Network
import Sotoportego.WireGuard.NetworkProperties
import Sotoportego.Lib.Lines
import Sotoportego.OpenVPN.Management
import Sotoportego.OpenVPN.ManagementProperties
import Sotoportego.Server.Profile
import Sotoportego.Server.ProfileStore
import Sotoportego.Server.ProfileStoreProperties
import Sotoportego.OpenVPN.Backend
import Sotoportego.OpenVPN.OwnershipProperties
import Sotoportego.OpenVPN.RestoreProperties
import Sotoportego.OpenVPN.CarrierProperties
import Sotoportego.OpenVPN.RecoveryProperties
import Sotoportego.Lib.RetryBudget
import Sotoportego.Server.Server
import Sotoportego.Server.ReconnectProperties
import Sotoportego.Server.HostProperties
import Sotoportego.Server.Reports
import Sotoportego.OpenVPN.DropProperties
import Sotoportego.Server.ReportsProperties
import Sotoportego.Lib.Handover
import Sotoportego.WireGuard.Config
import Sotoportego.Tailscale.Lifecycle
import Sotoportego.WireGuard.LifecycleProperties
import Sotoportego.OpenVPN.LifecycleProperties
import Sotoportego.Tailscale.LifecycleProperties
import Sotoportego.Server.Backends
import Sotoportego.Server.BackendsProperties
import Sotoportego.WireGuard.ReplayCopies
import Sotoportego.Tailscale.HuffmanProperties
import Sotoportego.Tailscale.HpackIntegers
import Sotoportego.Tailscale.HpackRoundTrip
import Sotoportego.Lib.Ipv4
import Sotoportego.Tailscale.CidrProperties
import Sotoportego.Tailscale.SubnetRoutesProperties
import Sotoportego.Tailscale.LongestPrefixProperties
import Sotoportego.Tailscale.BodyProperties
import Sotoportego.Server.Catalogue
import Sotoportego.Server.CatalogueProperties
import Sotoportego.WireGuard.PendingProperties
import Sotoportego.Tailscale.TableBoundProperties
import Sotoportego.Lib.Utf8
import Sotoportego.Tailscale.JsonText
import Sotoportego.Tailscale.JsonTextProperties
import Sotoportego.Lib.Checked
import Sotoportego.Tailscale.JsonCursor
import Sotoportego.Tailscale.JsonCursorProperties
import Sotoportego.Tailscale.NoiseOutput
import Sotoportego.Tailscale.NoiseOutputProperties
import Sotoportego.Tailscale.DnsBuffer
import Sotoportego.Tailscale.DnsBufferProperties
import Sotoportego.Tailscale.DnsQueryProperties
import Sotoportego.Tailscale.Stun
import Sotoportego.Tailscale.StunProperties
import Sotoportego.Tailscale.MagicSock
import Sotoportego.Tailscale.MagicSockProperties
import Sotoportego.Lib.Words
import Sotoportego.Lib.Limbs
import Sotoportego.Tailscale.Poly1305
import Sotoportego.Tailscale.Poly1305Properties
import Sotoportego.Lib.StreamBox
import Sotoportego.Tailscale.NaClBox
import Sotoportego.Tailscale.NaClBoxProperties
import Sotoportego.Tailscale.DiscoBoxProperties
import Sotoportego.WireGuard.RekeyProperties
import Sotoportego.Lib.Arguments
import Sotoportego.OpenVPN.Credentials
import Sotoportego.OpenVPN.CredentialsProperties
import Sotoportego.OpenVPN.ConfigParser
import Sotoportego.OpenVPN.ConfigParserProperties
import Sotoportego.Lib.LastWrite
import Sotoportego.WireGuard.ConfigParser
import Sotoportego.WireGuard.ConfigParserProperties
import Sotoportego.Lib.Padding
import Sotoportego.WireGuard.ConfigRoundTrip
import Sotoportego.WireGuard.Blake2s
import Sotoportego.Lib.HeldBack
import Sotoportego.WireGuard.Blake2sProperties
import Sotoportego.Lib.Sextets
import Sotoportego.Server.Base64
import Sotoportego.Server.Base64Properties
import Sotoportego.Tailscale.Worker
import Sotoportego.Tailscale.WorkerProperties
import Sotoportego.Tailscale.Identity
import Sotoportego.Tailscale.IdentityProperties
import Sotoportego.Server.Registry
import Sotoportego.Server.RegistryProperties
import Sotoportego.Server.VPNGate
import Sotoportego.Server.VPNGateProperties
import Sotoportego.WireGuard.Interop
import Sotoportego.WireGuard.InteropProperties
import Sotoportego.Tailscale.Http2Link
import Sotoportego.Tailscale.Http2LinkProperties
import Sotoportego.Tailscale.ControlSession
import Sotoportego.Tailscale.ControlSessionProperties
