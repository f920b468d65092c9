import LzcSdk.RemoteSocks.AddressText
import LzcSdk.RemoteSocks.Handshake
import LzcSdk.RemoteSocks.FramedStream
import LzcSdk.RemoteSocks.FramedRecv
import LzcSdk.RemoteSocks.Duplex
import LzcSdk.RemoteSocks.EndpointRefresh
import LzcSdk.RemoteSocks.RelaySend
import LzcSdk.RemoteSocks.ControlClosure
import LzcSdk.RemoteSocks.ForeignTrace
import LzcSdk.RemoteSocks.PeerDatagrams
import LzcSdk.RemoteSocks.ListenerReplies
import LzcSdk.Auth.SingleFlight
import LzcSdk.Auth.Injection
import LzcSdk.Auth.RefreshTime
import LzcSdk.Auth.TokenProgress
import LzcSdk.Auth.Identity
import LzcSdk.Metadata
import LzcSdk.RemoteSocks.CommandExact
import LzcSdk.RemoteSocks.ResolvedNetstack
import LzcSdk.RemoteSocks.Tunnel
import LzcSdk.RemoteSocks.AssociatedSession
import LzcSdk.ServiceAddress
import LzcSdk.DeviceTransport
import LzcSdk.ServiceStatus
