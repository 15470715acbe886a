import SingBoxMini.Support.Bytes
import SingBoxMini.Support.Slices
import SingBoxMini.Support.Text
import SingBoxMini.Support.TomlText
import SingBoxMini.Support.Files
import SingBoxMini.Support.HashMap
import SingBoxMini.Support.Notify
import SingBoxMini.Support.Runs
import SingBoxMini.Support.Reader
import SingBoxMini.Support.Relay
import SingBoxMini.Support.Proxy
import SingBoxMini.Support.Oneshot
import SingBoxMini.Support.Tasks
import SingBoxMini.Support.Duplex
import SingBoxMini.Support.Evict
import SingBoxMini.Support.SlidingWindow
import SingBoxMini.Support.Url
import SingBoxMini.Support.Base64
import SingBoxMini.Support.Percent
import SingBoxMini.Support.UnixPath
import SingBoxMini.Support.UrlPath
import SingBoxMini.Support.Shell
import SingBoxMini.Support.Systemd
import SingBoxMini.Support.Json
import SingBoxMini.Support.Yaml
import SingBoxMini.Protocol.Varint
import SingBoxMini.Protocol.UdpMessage
import SingBoxMini.Protocol.UdpCodec
import SingBoxMini.Protocol.TcpRequest
import SingBoxMini.Protocol.TcpResponse
import SingBoxMini.Protocol.Reassembler
import SingBoxMini.Protocol.ReassemblerRuns
import SingBoxMini.Protocol.Fragments
import SingBoxMini.Outbound
import SingBoxMini.Salamander.Cipher
import SingBoxMini.Salamander.Socket
import SingBoxMini.Salamander.RoundTrip
import SingBoxMini.Salamander.Datagrams
import SingBoxMini.Config
import SingBoxMini.Server.Users
import SingBoxMini.Server.AcceptLoop
import SingBoxMini.Server.AcceptProgress
import SingBoxMini.Server.Reload
import SingBoxMini.Server.Traffic
import SingBoxMini.Server.RateCells
import SingBoxMini.Server.UdpDatagrams
import SingBoxMini.Server.UdpSessions
import SingBoxMini.Server.TcpStream
import SingBoxMini.Server.BufferPool
import SingBoxMini.Server.TcpRelay
import SingBoxMini.Vless.Users
import SingBoxMini.Vless.UdpFraming
import SingBoxMini.Vless.Request
import SingBoxMini.Vless.TcpRelay
import SingBoxMini.Brutal.Controller
import SingBoxMini.Brutal.Cache
import SingBoxMini.Masquerade.Files
import SingBoxMini.Masquerade.Proxy
import SingBoxMini.Admin.Supervisor
import SingBoxMini.Admin.Applied
import SingBoxMini.Admin.Credentials
import SingBoxMini.Admin.Sessions
import SingBoxMini.Admin.Accounts
import SingBoxMini.Admin.AccountRuns
import SingBoxMini.Admin.Reset
import SingBoxMini.ReverseProxy.Settings
import SingBoxMini.ReverseProxy.Update
import SingBoxMini.ReverseProxy.UpdateAgreement
import SingBoxMini.NatTunnel.Handshake
import SingBoxMini.NatTunnel.Completeness
import SingBoxMini.NatTunnel.Agreement
import SingBoxMini.NatTunnel.Pool
import SingBoxMini.NatTunnel.PoolWakeups
import SingBoxMini.NatTunnel.Assignment
import SingBoxMini.NatTunnel.Ownership
import SingBoxMini.NatTunnel.Exclusive
import SingBoxMini.NatTunnel.Leaving
import SingBoxMini.NatTunnel.Link
import SingBoxMini.NatTunnel.Tracker
import SingBoxMini.ReverseProxy.Release
import SingBoxMini.ReverseProxy.Restart
import SingBoxMini.Sublink.ShortStore
import SingBoxMini.Sublink.StoreRuns
import SingBoxMini.Sublink.ShortLinks
import SingBoxMini.Sublink.Persistence
import SingBoxMini.Sublink.Nodes
import SingBoxMini.Sublink.Input
import SingBoxMini.Sublink.Lines
import SingBoxMini.Sublink.Rules
import SingBoxMini.Sublink.Render
import SingBoxMini.Sublink.ShareLinks
import SingBoxMini.Sublink.Rewrite
import SingBoxMini.Sublink.Routing
import SingBoxMini.Sublink.Selector
import SingBoxMini.Sublink.ClashEntries
import SingBoxMini.Sublink.Tags
import SingBoxMini.Sublink.SurgeLines
import SingBoxMini.Sublink.RuleLines
import SingBoxMini.Sublink.Parameters
import SingBoxMini.Sublink.Convert
import SingBoxMini.Sublink.ShortConvert
import SingBoxMini.Sublink.Universal
import SingBoxMini.Sublink.Shadowsocks
import SingBoxMini.Startup.OpenRc
import SingBoxMini.Startup.Systemd
