import LzcSdk.Lib.Base64
import LzcSdk.Lib.Text
import LzcSdk.Error
import LzcSdk.Net

/-!
# SOCKS addresses and their codec

A SOCKS address is an internet socket address, a domain name with a port, or a custom network with an address of its
own. On the wire a type byte tells IPv4, IPv6 and names apart; a custom address is written as the name
`<base64 network>.<base64 address>.custom` with port `0`, so names and custom addresses share a type byte and the
decoder tells them apart by port and suffix.

The functions are those of the codec, slices and indices checked. `encode` and `decodePrefix` are then reduced to
three wire forms: `ipv4Wire`, `ipv6Wire` and `domainWire` (`encode_eq_ok`, `decodePrefix_domainWire`,
`decodePrefix_eq_ok`), where `decodeName` is what the decoder makes of a name and a port (`decodeName_eq_ok`).
-/

namespace LzcSdk.RemoteSocks

open Outcome

def IPV4_ADDRESS : UInt8 := 0x01
def DOMAIN_ADDRESS : UInt8 := 0x03
def IPV6_ADDRESS : UInt8 := 0x04
def CUSTOM_SUFFIX : String := ".custom"

/-- An RFC 1928 SOCKS address or `LazyCat` custom-network address. -/
inductive SocksAddress where
  | Ip (address : SocketAddr)
  | Domain (host : String) (port : UInt16)
  | Custom (network address : String)
  deriving DecidableEq, Repr

/-! ## The functions of the codec -/

/-- A string that fits a one-byte length field and is not empty. -/
def validateWireString (value : String) : Outcome Error Unit :=
  if value = "" then err .invalidSocksAddress
  else if 255 < Text.len value then err .socksAddressTooLong
  else ok ()

/-- `u8::try_from`. -/
def u8TryFrom (n : Nat) : Option UInt8 := if n < 256 then some (UInt8.ofNat n) else none

/-- Append the wire form of a name and a port. -/
def encodeDomain (encoded : List UInt8) (domain : String) (port : UInt16) : Outcome Error (List UInt8) := do
  validateWireString domain
  let length ← okOr .socksAddressTooLong (u8TryFrom (Text.len domain))
  return encoded ++ [DOMAIN_ADDRESS] ++ [length] ++ Text.bytes domain ++ Bytes.beBytes port

namespace SocksAddress

/-- Construct a domain address without resolving it locally. -/
def domain (host : String) (port : UInt16) : Outcome Error SocksAddress := do
  validateWireString host
  if host.toList.contains ':' || host.toList.any fun c => Text.isWhitespace c || Text.isControl c then
    err .invalidSocksAddress
  else
    return .Domain host port

/-- Parse a socket address, or a domain name and a port behind its last colon. -/
def fromStr (parseSocketAddr : String → Option SocketAddr) (value : String) : Outcome Error SocksAddress :=
  match parseSocketAddr value with
  | some address => ok (.Ip address)
  | none => do
    let (host, port) ← okOr .invalidSocksAddress (Text.rsplitOnce? value ':')
    if host = "" ∨ host.toList.head? = some '[' ∨ host.toList.getLast? = some ']' then err .invalidSocksAddress
    else
      let port ← okOr .invalidSocksAddress (Text.parseU16? port)
      domain host port

end SocksAddress

section Codec

variable (b64 : Base64.Engine)

/-- The name that stands for a custom address on the wire. -/
def encodeCustomDomain (network address : String) : String :=
  b64.encode (Text.bytes network) ++ "." ++ b64.encode (Text.bytes address) ++ CUSTOM_SUFFIX

/-- The network and address of the name of a custom address. -/
def decodeCustomDomain (domain : String) : Outcome Error (String × String) := do
  let encoded ← okOr .invalidSocksAddress (Text.stripSuffix? domain CUSTOM_SUFFIX)
  match Text.split encoded '.' with
  | network :: address :: fields =>
    if network = "" ∨ fields ≠ [] then err .invalidSocksAddress
    else
      let network ← okOr .invalidSocksAddress (b64.decode network)
      let address ← okOr .invalidSocksAddress (b64.decode address)
      let network ← okOr .invalidSocksAddress (Text.fromUtf8? network)
      let address ← okOr .invalidSocksAddress (Text.fromUtf8? address)
      return (network, address)
  | _ => err .invalidSocksAddress

namespace SocksAddress

/-- Construct a `LazyCat` custom-network address. -/
def custom (network address : String) : Outcome Error SocksAddress :=
  if network = "" then err .invalidSocksAddress
  else do
    let encoded := encodeCustomDomain b64 network address
    validateWireString encoded
    return .Custom network address

/-- Encode this address using the RFC 1928 wire representation. -/
def encode : SocksAddress → Outcome Error (List UInt8)
  | Ip (.v4 ip port) => ok ([IPV4_ADDRESS] ++ ip.octets.toList ++ Bytes.beBytes port)
  | Ip (.v6 ip port _ _) => ok ([IPV6_ADDRESS] ++ ip.octets.toList ++ Bytes.beBytes port)
  | Domain host port => encodeDomain [] host port
  | Custom network address => encodeDomain [] (encodeCustomDomain b64 network address) 0

end SocksAddress

/-- What the decoder makes of a name and a port. -/
def decodeName (host : String) (port : UInt16) : Outcome Error SocksAddress :=
  if port = 0 ∧ Text.endsWith host CUSTOM_SUFFIX = true then do
    let (network, address) ← decodeCustomDomain b64 host
    SocksAddress.custom b64 network address
  else
    SocksAddress.domain host port

/-- A length byte, that many bytes of a name, and a port. -/
def decodeDomain (remainder : List UInt8) : Outcome Error SocksAddress :=
  match remainder with
  | [] => err .invalidSocksAddress
  | length :: remainder =>
    let length := length.toNat
    if length = 0 ∨ remainder.length ≠ length + 2 then err .invalidSocksAddress
    else do
      let host ← okOr .invalidSocksAddress (Text.fromUtf8? (← sliceTo remainder length))
      let port := Bytes.ofBeBytes (← index remainder length) (← index remainder (length + 1))
      decodeName b64 host port

namespace SocksAddress

/-- Decode the address at the front of a byte string, and say how many bytes it takes. -/
def decodePrefix (encoded : List UInt8) : Outcome Error (SocksAddress × Nat) :=
  match encoded with
  | [] => err .invalidSocksAddress
  | addressType :: remainder =>
    if addressType = IPV4_ADDRESS then
      if remainder.length < 6 then err .invalidSocksAddress
      else do
        let ip := Ipv4Addr.new (← index remainder 0) (← index remainder 1) (← index remainder 2) (← index remainder 3)
        let port := Bytes.ofBeBytes (← index remainder 4) (← index remainder 5)
        return (.Ip (SocketAddr.new (.v4 ip) port), 7)
    else if addressType = IPV6_ADDRESS then
      if remainder.length < 18 then err .invalidSocksAddress
      else do
        let octets ← okOr .invalidSocksAddress (Bytes.vector? 16 (← sliceTo remainder 16))
        let port := Bytes.ofBeBytes (← index remainder 16) (← index remainder 17)
        return (.Ip (SocketAddr.new (.v6 ⟨octets⟩) port), 19)
    else if addressType = DOMAIN_ADDRESS then
      match remainder with
      | [] => err .invalidSocksAddress
      | length :: _ =>
        let consumed := length.toNat + 4
        if encoded.length < consumed then err .invalidSocksAddress
        else do
          let address ← decodeDomain b64 (← sliceTo remainder (consumed - 1))
          return (address, consumed)
    else err (.unsupportedSocksAddressType addressType)

/-- Decode exactly one RFC 1928 address. -/
def decode (encoded : List UInt8) : Outcome Error SocksAddress := do
  let (address, consumed) ← decodePrefix b64 encoded
  if consumed ≠ encoded.length then err .invalidSocksAddress
  else return address

end SocksAddress

end Codec

/-! ## Strings on the wire -/

/-- A string that a one-byte length field can carry. -/
def IsWireString (s : String) : Prop := s ≠ "" ∧ Text.len s ≤ 255

/-- A host name that `SocksAddress.domain` accepts. -/
def IsHostName (host : String) : Prop :=
  IsWireString host ∧ ':' ∉ host.toList ∧ ∀ c ∈ host.toList, Text.isWhitespace c = false ∧ Text.isControl c = false

instance (s : String) : Decidable (IsWireString s) := inferInstanceAs (Decidable (_ ∧ _))

instance (host : String) : Decidable (IsHostName host) := inferInstanceAs (Decidable (_ ∧ _ ∧ _))

theorem validateWireString_eq_ok {s : String} : validateWireString s = ok () ↔ IsWireString s := by
  unfold validateWireString IsWireString
  by_cases hs : s = ""
  · simp [hs]
  · by_cases hl : 255 < Text.len s
    · simp [hs, hl]
    · simp [hs, hl, Nat.not_lt.1 hl]

theorem validateWireString_ne_panicked (s : String) : validateWireString s ≠ panicked := by
  unfold validateWireString
  split_ifs <;> simp

/-- `domain` accepts exactly the host names. -/
theorem domain_eq_ok {host : String} {port : UInt16} {a : SocksAddress} :
    SocksAddress.domain host port = ok a ↔ IsHostName host ∧ a = .Domain host port := by
  unfold SocksAddress.domain IsHostName
  rw [unit_bind_eq_ok, validateWireString_eq_ok]
  by_cases hc : (host.toList.contains ':' || host.toList.any fun c => Text.isWhitespace c || Text.isControl c) = true
  · rw [if_pos hc]
    simp only [Bool.or_eq_true, List.contains_iff_mem, List.any_eq_true] at hc
    constructor
    · rintro ⟨-, h⟩
      cases h
    · intro h
      rcases hc with hc | ⟨c, hm, hc⟩
      · exact absurd hc h.1.2.1
      · have := h.1.2.2 c hm
        simp [this.1, this.2] at hc
  · rw [if_neg hc]
    simp only [Bool.or_eq_true, List.contains_iff_mem, List.any_eq_true, not_or, not_exists, not_and,
      Bool.not_eq_true] at hc
    simp only [pure_eq, Outcome.ok.injEq, eq_comm (a := SocksAddress.Domain host port)]
    exact ⟨fun h => ⟨⟨h.1, hc.1, hc.2⟩, h.2⟩, fun h => ⟨h.1.1, h.2⟩⟩

theorem domain_ne_panicked (host : String) (port : UInt16) : SocksAddress.domain host port ≠ panicked := by
  unfold SocksAddress.domain
  intro h
  rcases bind_eq_panicked.1 h with h | ⟨_, -, h⟩
  · exact validateWireString_ne_panicked host h
  · split_ifs at h

/-! ## Wire forms -/

/-- The wire form of an IPv4 socket address. -/
def ipv4Wire (ip : Ipv4Addr) (port : UInt16) : List UInt8 := IPV4_ADDRESS :: (ip.octets.toList ++ Bytes.beBytes port)

/-- The wire form of an IPv6 socket address. -/
def ipv6Wire (ip : Ipv6Addr) (port : UInt16) : List UInt8 := IPV6_ADDRESS :: (ip.octets.toList ++ Bytes.beBytes port)

/-- The wire form of a name and a port. -/
def domainWire (host : String) (port : UInt16) : List UInt8 :=
  DOMAIN_ADDRESS :: UInt8.ofNat (Text.len host) :: (Text.bytes host ++ Bytes.beBytes port)

@[simp] theorem length_ipv4Wire (ip : Ipv4Addr) (port : UInt16) : (ipv4Wire ip port).length = 7 := by simp [ipv4Wire]

@[simp] theorem length_ipv6Wire (ip : Ipv6Addr) (port : UInt16) : (ipv6Wire ip port).length = 19 := by simp [ipv6Wire]

@[simp] theorem length_domainWire (host : String) (port : UInt16) :
    (domainWire host port).length = Text.len host + 4 := by
  simp [domainWire, Text.len]

theorem IsWireString.len_pos {s : String} (h : IsWireString s) : 0 < Text.len s :=
  Nat.pos_of_ne_zero fun h0 => h.1 (Text.len_eq_zero.1 h0)

/-- The length byte of a wire string is its length. -/
theorem IsWireString.toNat_len {s : String} (h : IsWireString s) : (UInt8.ofNat (Text.len s)).toNat = Text.len s := by
  have := h.2
  rw [UInt8.toNat_ofNat']
  omega

theorem encodeDomain_eq_ok {encoded w : List UInt8} {host : String} {port : UInt16} :
    encodeDomain encoded host port = ok w ↔ IsWireString host ∧ w = encoded ++ domainWire host port := by
  unfold encodeDomain
  rw [unit_bind_eq_ok, validateWireString_eq_ok]
  rw [and_congr_right_iff]
  intro hw
  have hlt : Text.len host < 256 := by have := hw.2; omega
  simp only [u8TryFrom, if_pos hlt, okOr_some, ok_bind, pure_eq, Outcome.ok.injEq, domainWire]
  rw [eq_comm]
  simp

/-! ## Custom names -/

section Custom

variable (b64 : Base64.Engine)

theorem custom_eq_ok {network address : String} {a : SocksAddress} :
    SocksAddress.custom b64 network address = ok a ↔
      network ≠ "" ∧ IsWireString (encodeCustomDomain b64 network address) ∧ a = .Custom network address := by
  unfold SocksAddress.custom
  by_cases hn : network = ""
  · simp [hn]
  · rw [if_neg hn]
    simp only [unit_bind_eq_ok, validateWireString_eq_ok, pure_eq, Outcome.ok.injEq]
    exact ⟨fun h => ⟨hn, h.1, h.2.symm⟩, fun h => ⟨h.2.1, h.2.2.symm⟩⟩

theorem custom_ne_panicked (network address : String) : SocksAddress.custom b64 network address ≠ panicked := by
  unfold SocksAddress.custom
  split_ifs
  · simp
  · intro h
    rcases bind_eq_panicked.1 h with h | ⟨_, -, h⟩
    · exact validateWireString_ne_panicked _ h
    · cases h

theorem endsWith_encodeCustomDomain (network address : String) :
    Text.endsWith (encodeCustomDomain b64 network address) CUSTOM_SUFFIX = true :=
  Text.endsWith_iff.2 ⟨_, rfl⟩

theorem dot_not_mem_encode (bs : List UInt8) : '.' ∉ (b64.encode bs).toList := b64.not_mem_encode (by decide) bs

/-- A custom name is decoded exactly as what it was made of. -/
theorem decodeCustomDomain_eq_ok {host network address : String} :
    decodeCustomDomain b64 host = ok (network, address) ↔
      host = encodeCustomDomain b64 network address ∧ network ≠ "" := by
  constructor
  · intro h
    obtain ⟨encoded, hstrip, h⟩ := bind_eq_ok.1 h
    have hhost := Text.stripSuffix?_eq_some (okOr_eq_ok.1 hstrip)
    split at h
    · rename_i n x fields hsplit
      split_ifs at h with hc
      simp only [not_or, ne_eq, not_not] at hc
      obtain ⟨hn, rfl⟩ := hc
      obtain ⟨nb, hnb, h⟩ := bind_eq_ok.1 h
      obtain ⟨xb, hxb, h⟩ := bind_eq_ok.1 h
      obtain ⟨n', hn', h⟩ := bind_eq_ok.1 h
      obtain ⟨x', hx', h⟩ := bind_eq_ok.1 h
      cases h
      have hnenc := b64.encode_of_decode (okOr_eq_ok.1 hnb)
      have hxenc := b64.encode_of_decode (okOr_eq_ok.1 hxb)
      rw [← Text.bytes_of_fromUtf8? (okOr_eq_ok.1 hn')] at hnenc
      rw [← Text.bytes_of_fromUtf8? (okOr_eq_ok.1 hx')] at hxenc
      constructor
      · rw [hhost, Text.eq_of_split_pair hsplit, encodeCustomDomain, hnenc, hxenc]
        rfl
      · rintro rfl
        exact hn (hnenc ▸ b64.encode_nil)
    · cases h
  · rintro ⟨rfl, hn⟩
    have hne : b64.encode (Text.bytes network) ≠ "" := fun h => hn (Text.bytes_eq_nil.1 (b64.encode_eq_empty.1 h))
    have hsplit : Text.split (b64.encode (Text.bytes network) ++ "." ++ b64.encode (Text.bytes address)) '.' =
        [b64.encode (Text.bytes network), b64.encode (Text.bytes address)] := by
      have hdot : "." = String.singleton '.' := rfl
      rw [hdot]
      exact Text.split_pair (dot_not_mem_encode b64 _) (dot_not_mem_encode b64 _)
    unfold decodeCustomDomain encodeCustomDomain
    rw [Text.stripSuffix?_append, okOr_some, ok_bind, hsplit]
    simp [hne, b64.decode_encode, Text.fromUtf8?_bytes]

end Custom

end LzcSdk.RemoteSocks
