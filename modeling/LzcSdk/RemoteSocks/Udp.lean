import LzcSdk.RemoteSocks.Address

/-!
# Datagrams

The calls of a UDP socket, for either transport: a send checks the length of its payload (`sendTo`, `send`), and
a receive copies what fits into the caller's buffer (`copyPayload`, `Received`). `recv` receives until a datagram comes
from the fixed peer (`RecvCall.again`).
-/

namespace LzcSdk.RemoteSocks

open Outcome

def MAX_UDP_PAYLOAD : Nat := 65507

/-- The socket address of an address that needs no resolution. -/
def concreteIpAddress : SocksAddress → Outcome Error SocketAddr
  | .Ip address => ok address
  | .Domain _ _ => err .invalidSocksUdpAddress
  | .Custom _ _ => err .invalidSocksUdpAddress

/-- Copy as much as fits, and leave the rest of the destination as it is. -/
def copyPayload (destination source : List UInt8) : Nat × List UInt8 :=
  let copied := min destination.length source.length
  (copied, source.take copied ++ destination.drop copied)

/-- A payload that fits is copied in full. -/
theorem copyPayload_of_le {destination source : List UInt8} (h : source.length ≤ destination.length) :
    copyPayload destination source = (source.length, source ++ destination.drop source.length) := by
  rw [copyPayload, Nat.min_eq_right h, List.take_length]

/-- A received datagram: the bytes copied, its source, and the caller's buffer. -/
structure Received where
  copied : Nat
  source : SocksAddress
  buffer : List UInt8
  deriving DecidableEq, Repr

section Calls

variable {ρ : Type} (transport : List UInt8 → SocksAddress → Outcome Error ρ)

/-- Send one datagram to an explicit target. -/
def sendTo (payload : List UInt8) (target : SocksAddress) : Outcome Error ρ :=
  if MAX_UDP_PAYLOAD < payload.length then err .socksUdpPayloadTooLarge
  else transport payload target

/-- Send one datagram to the fixed peer. -/
def send (peerAddr : Option SocksAddress) (payload : List UInt8) : Outcome Error ρ := do
  let peer ← okOr .socksUdpNotConnected peerAddr
  sendTo transport payload peer

end Calls

/-- A call that sends. -/
inductive SendCall where
  | sendTo (payload : List UInt8) (target : SocksAddress)
  | send (payload : List UInt8)
  deriving DecidableEq, Repr

/-- A call that receives, with the caller's buffer. -/
inductive RecvCall where
  | recvFrom (payload : List UInt8)
  | recv (payload : List UInt8)
  deriving DecidableEq, Repr

namespace RecvCall

/-- The caller's buffer. -/
def buffer : RecvCall → List UInt8
  | recvFrom payload => payload
  | recv payload => payload

/-- The next receive of `recv`, after a datagram that did not come from the fixed peer. -/
def again (peerAddr : Option SocksAddress) : RecvCall → Received → Option RecvCall
  | recvFrom _, _ => none
  | recv _, r => if some r.source = peerAddr then none else some (recv r.buffer)

end RecvCall

end LzcSdk.RemoteSocks
