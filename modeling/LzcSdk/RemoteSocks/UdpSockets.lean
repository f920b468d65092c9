import LzcSdk.RemoteSocks.Association
import LzcSdk.RemoteSocks.Handshake

/-!
# Making a UDP socket

`udp_associate` performs an ASSOCIATE command of the network stack, takes the address of the reply for the relay, binds
a UDP socket of the relay's family and leaves the connection open as the control stream. `connect_udp` and `bind_udp`
resolve their address, perform a command for it, and hand out the connection as a framed socket, with a fixed peer or
without one. What each of them has made of a command that succeeded is said once (`udpAssociate_eq_ok`,
`connectUdp_eq_ok`, `bindUdp_eq_ok`).
-/

namespace LzcSdk.RemoteSocks

open Outcome ByteIo

def CONNECT_UDP_COMMAND : UInt8 := 0xe2
def BIND_UDP_COMMAND : UInt8 := 0xe3

/-- A UDP socket of an association, with its control stream. -/
structure AssociatedSocket where
  association : Association
  localAddr : SocksAddress
  control : Socket

/-- A UDP socket over a framed stream. -/
structure FramedSocket where
  stream : Socket
  localAddr : SocksAddress
  peerAddr : Option SocksAddress

def framedSocket (stream : Socket) (localAddr : SocksAddress) (peerAddr : Option SocksAddress) : FramedSocket :=
  ⟨stream, localAddr, peerAddr⟩

/-! ## Addresses -/

/-- The first address of a name, or the address itself. -/
def resolveSocketAddress (lookupHost : String → UInt16 → Outcome Error (List SocketAddr)) :
    SocksAddress → Outcome Error SocketAddr
  | .Ip address => ok address
  | .Domain host port => do
    let addresses ← lookupHost host port
    okOr .invalidSocksUdpAddress addresses.head?
  | .Custom _ _ => err .invalidSocksUdpAddress

/-- A target that needs no resolution any more. -/
def resolveUdpTarget (lookupHost : String → UInt16 → Outcome Error (List SocketAddr)) :
    SocksAddress → Outcome Error SocksAddress
  | .Ip address => ok (.Ip address)
  | .Domain host port => do
    let address ← resolveSocketAddress lookupHost (.Domain host port)
    return .Ip address
  | .Custom _ _ => err .invalidSocksUdpAddress

/-- The unspecified address of the same family. -/
def unspecifiedFor : SocketAddr → SocketAddr
  | .v4 _ _ => SocketAddr.new (.v4 (Ipv4Addr.new 0 0 0 0)) 0
  | .v6 _ _ _ _ => SocketAddr.new (.v6 ⟨Vector.replicate 16 0⟩) 0

/-- A resolved target is a socket address: the target itself, or the first address of its name. -/
theorem resolveUdpTarget_eq_ok {lookupHost : String → UInt16 → Outcome Error (List SocketAddr)}
    {target resolved : SocksAddress} (h : resolveUdpTarget lookupHost target = ok resolved) :
    ∃ address, resolved = .Ip address ∧ (target = .Ip address ∨
      ∃ host port rest, target = .Domain host port ∧ lookupHost host port = ok (address :: rest)) := by
  cases target with
  | Ip address =>
    cases h
    exact ⟨address, rfl, .inl rfl⟩
  | Domain host port =>
    obtain ⟨address, hfirst, h⟩ := bind_eq_ok.1 h
    cases h
    obtain ⟨addresses, hlookup, hfirst⟩ := bind_eq_ok.1 hfirst
    cases addresses with
    | nil => cases hfirst
    | cons first rest =>
      cases hfirst
      exact ⟨address, rfl, .inr ⟨host, port, rest, rfl, hlookup⟩⟩
  | Custom network address => cases h

namespace RemoteNetstack

variable (performCommand : UInt8 → SocksAddress → Outcome Error (SocksAddress × Socket))
  (lookupHost : String → UInt16 → Outcome Error (List SocketAddr))

/-- Make an association with a fixed default target; `bind` gives the local address of a UDP socket. -/
def udpAssociate (b64 : Base64.Engine) (bind : SocketAddr → Outcome Error SocketAddr) (target : SocksAddress) :
    Outcome Error AssociatedSocket := do
  let unspecified := SocksAddress.Ip (SocketAddr.new (.v4 (Ipv4Addr.new 0 0 0 0)) 0)
  let (relay, control) ← performCommand ASSOCIATE_COMMAND unspecified
  let relay ← resolveSocketAddress lookupHost relay
  let localAddr ← bind (unspecifiedFor relay)
  return ⟨⟨b64, relay, some target⟩, .Ip localAddr, control⟩

/-- Connect a framed socket to a peer. -/
def connectUdp (target : SocksAddress) : Outcome Error FramedSocket := do
  let target ← resolveUdpTarget lookupHost target
  let (localAddr, stream) ← performCommand CONNECT_UDP_COMMAND target
  return framedSocket stream localAddr (some target)

/-- Bind a framed socket, without a peer. -/
def bindUdp (address : SocksAddress) : Outcome Error FramedSocket := do
  let address ← resolveUdpTarget lookupHost address
  let (localAddr, stream) ← performCommand BIND_UDP_COMMAND address
  return framedSocket stream localAddr none

variable {performCommand lookupHost} {target : SocksAddress}

theorem udpAssociate_eq_ok {b64 : Base64.Engine} {bind : SocketAddr → Outcome Error SocketAddr}
    {sock : AssociatedSocket} (h : udpAssociate performCommand lookupHost b64 bind target = ok sock) :
    ∃ relay localAddr,
      performCommand ASSOCIATE_COMMAND (.Ip (.v4 (Ipv4Addr.new 0 0 0 0) 0)) = ok (relay, sock.control) ∧
      resolveSocketAddress lookupHost relay = ok sock.association.relay ∧
      bind (unspecifiedFor sock.association.relay) = ok localAddr ∧ sock.localAddr = .Ip localAddr ∧
      sock.association.b64 = b64 ∧ sock.association.peerAddr = some target := by
  obtain ⟨⟨relay, control⟩, hperform, h⟩ := bind_eq_ok.1 h
  obtain ⟨address, hresolve, h⟩ := bind_eq_ok.1 h
  obtain ⟨localAddr, hbind, h⟩ := bind_eq_ok.1 h
  cases h
  exact ⟨relay, localAddr, hperform, hresolve, hbind, rfl, rfl, rfl⟩

variable {sock : FramedSocket}

theorem connectUdp_eq_ok (h : connectUdp performCommand lookupHost target = ok sock) :
    ∃ address, resolveUdpTarget lookupHost target = ok address ∧
      performCommand CONNECT_UDP_COMMAND address = ok (sock.localAddr, sock.stream) ∧ sock.peerAddr = some address := by
  obtain ⟨address, hresolve, h⟩ := bind_eq_ok.1 h
  obtain ⟨⟨localAddr, stream⟩, hperform, h⟩ := bind_eq_ok.1 h
  cases h
  exact ⟨address, hresolve, hperform, rfl⟩

theorem bindUdp_eq_ok (h : bindUdp performCommand lookupHost target = ok sock) :
    ∃ address, resolveUdpTarget lookupHost target = ok address ∧
      performCommand BIND_UDP_COMMAND address = ok (sock.localAddr, sock.stream) ∧ sock.peerAddr = none := by
  obtain ⟨address, hresolve, h⟩ := bind_eq_ok.1 h
  obtain ⟨⟨localAddr, stream⟩, hperform, h⟩ := bind_eq_ok.1 h
  cases h
  exact ⟨address, hresolve, hperform, rfl⟩

end RemoteNetstack

end LzcSdk.RemoteSocks
