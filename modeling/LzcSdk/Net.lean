import LzcSdk.Lib.Bytes

/-!
# Internet socket addresses

The addresses of the standard library: an IPv4 address is four octets, an IPv6 address sixteen, and an IPv6 socket
address also carries a flow label and a scope. An IPv4 address has an IPv4-mapped IPv6 form `::ffff:a.b.c.d`;
`toIpv4Mapped` recognises it (`toIpv4Mapped_toIpv6Mapped`).
-/

namespace LzcSdk

structure Ipv4Addr where
  octets : Vector UInt8 4
  deriving DecidableEq, Repr

structure Ipv6Addr where
  octets : Vector UInt8 16
  deriving DecidableEq, Repr

inductive IpAddr where
  | v4 (ip : Ipv4Addr)
  | v6 (ip : Ipv6Addr)
  deriving DecidableEq, Repr

inductive SocketAddr where
  | v4 (ip : Ipv4Addr) (port : UInt16)
  | v6 (ip : Ipv6Addr) (port : UInt16) (flowinfo scopeId : UInt32)
  deriving DecidableEq, Repr

namespace Ipv4Addr

/-- Four octets. -/
def new (a b c d : UInt8) : Ipv4Addr := ⟨#v[a, b, c, d]⟩

/-- The IPv4-mapped IPv6 address `::ffff:a.b.c.d`. -/
def toIpv6Mapped (ip : Ipv4Addr) : Ipv6Addr :=
  ⟨#v[0, 0, 0, 0, 0, 0, 0, 0, 0, 0, 0xff, 0xff, ip.octets[0], ip.octets[1], ip.octets[2], ip.octets[3]]⟩

end Ipv4Addr

namespace Ipv6Addr

/-- The IPv4 address of an IPv4-mapped address. -/
def toIpv4Mapped (ip : Ipv6Addr) : Option Ipv4Addr :=
  match ip.octets.toList with
  | [0, 0, 0, 0, 0, 0, 0, 0, 0, 0, 0xff, 0xff, a, b, c, d] => some (Ipv4Addr.new a b c d)
  | _ => none

end Ipv6Addr

namespace SocketAddr

/-- A socket address without flow label and scope. -/
def new : IpAddr → UInt16 → SocketAddr
  | .v4 ip, port => .v4 ip port
  | .v6 ip, port => .v6 ip port 0 0

def ip : SocketAddr → IpAddr
  | v4 ip _ => .v4 ip
  | v6 ip _ _ _ => .v6 ip

def port : SocketAddr → UInt16
  | v4 _ port => port
  | v6 _ port _ _ => port

end SocketAddr

theorem toIpv4Mapped_toIpv6Mapped (ip : Ipv4Addr) : ip.toIpv6Mapped.toIpv4Mapped = some ip := by
  obtain ⟨⟨⟨xs⟩, h⟩⟩ := ip
  match xs, h with
  | [a, b, c, d], _ => rfl

end LzcSdk
