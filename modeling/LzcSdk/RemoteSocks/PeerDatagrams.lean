import LzcSdk.RemoteSocks.FixedPeer
import LzcSdk.RemoteSocks.RelayReceive
import LzcSdk.RemoteSocks.UdpSockets

/-!
# Datagrams of the fixed peer

`recv` compares the decoded source of a datagram with the fixed peer, and an address does not always come back from
the wire as it was. The constructors of an address (`Constructed`) and the calls that make a socket with a fixed peer
(`udpAssociate`, `connectUdp`) let such addresses through, and then the datagrams of the peer are filtered.

**Which peers are heard** (`peer_datagrams_received`): on an association those that the wire keeps (`KeptByWire`), and
on a framed stream those that the sixteen octets of a frame keep (`KeptByFrame`).
-/

namespace LzcSdk.RemoteSocks

open Outcome ByteIo RemoteNetstack

/-! ## The addresses of a peer -/

/-- The addresses that the public constructors give. -/
inductive Constructed (b64 : Base64.Engine) (parseSocketAddr : String → Option SocketAddr) : SocksAddress → Prop
  | domain {host : String} {port : UInt16} {t : SocksAddress} (h : SocksAddress.domain host port = ok t) :
    Constructed b64 parseSocketAddr t
  | custom {network address : String} {t : SocksAddress} (h : SocksAddress.custom b64 network address = ok t) :
    Constructed b64 parseSocketAddr t
  | ofSocketAddr (address : SocketAddr) : Constructed b64 parseSocketAddr (.Ip address)
  | fromStr {value : String} {t : SocksAddress} (h : SocksAddress.fromStr parseSocketAddr value = ok t) :
    Constructed b64 parseSocketAddr t

/-- The peer of a connected socket is a socket address. -/
theorem exists_ip_of_connectUdp {performCommand : UInt8 → SocksAddress → Outcome Error (SocksAddress × Socket)}
    {lookupHost : String → UInt16 → Outcome Error (List SocketAddr)} {target : SocksAddress} {sock : FramedSocket}
    (h : connectUdp performCommand lookupHost target = ok sock) : ∃ address, sock.peerAddr = some (.Ip address) := by
  obtain ⟨resolved, hresolve, -, hpeer⟩ := connectUdp_eq_ok h
  obtain ⟨address, rfl, -⟩ := resolveUdpTarget_eq_ok hresolve
  exact ⟨address, hpeer⟩

/-! ## What the wire keeps -/

/-- An address that comes back from the wire as it was. -/
def KeptByWire : SocksAddress → Prop
  | .Ip (.v4 _ _) => True
  | .Ip (.v6 _ _ flowinfo scopeId) => flowinfo = 0 ∧ scopeId = 0
  | .Domain host port => ¬ (port = 0 ∧ Text.endsWith host CUSTOM_SUFFIX = true)
  | .Custom _ _ => True

/-- An address that comes back from the header of a frame as it was. -/
def KeptByFrame : SocketAddr → Prop
  | .v4 _ _ => True
  | .v6 ip _ flowinfo scopeId => ip.toIpv4Mapped = none ∧ flowinfo = 0 ∧ scopeId = 0

theorem unmapped_eq_iff (address : SocketAddr) : unmapped address = address ↔ KeptByFrame address := by
  cases address with
  | v4 ip port => exact ⟨fun _ => trivial, fun _ => rfl⟩
  | v6 ip port flowinfo scopeId =>
    cases hm : ip.toIpv4Mapped with
    | some ip' => simp [unmapped, KeptByFrame, hm]
    | none => simp [unmapped, KeptByFrame, hm, eq_comm]

section Wire

variable {b64 : Base64.Engine} {parseSocketAddr : String → Option SocketAddr} {t : SocksAddress} {w : List UInt8}

theorem roundTrips_domain {host : String} {port : UInt16} (h : SocksAddress.domain host port = ok t) :
    RoundTrips t ↔ KeptByWire t := by
  obtain ⟨-, rfl⟩ := domain_eq_ok.1 h
  exact ⟨fun hr => hr.2, fun hk => ⟨h, hk⟩⟩

/-- Of the addresses of the constructors the wire carries exactly those. -/
theorem roundTrips_of_constructed (h : Constructed b64 parseSocketAddr t) : RoundTrips t ↔ KeptByWire t := by
  have socket : ∀ address, RoundTrips (.Ip address) ↔ KeptByWire (.Ip address) := by
    intro address
    cases address <;> exact Iff.rfl
  cases h with
  | domain h => exact roundTrips_domain h
  | custom h =>
    obtain ⟨hn, -, rfl⟩ := (custom_eq_ok b64).1 h
    exact ⟨fun _ => trivial, fun _ => hn⟩
  | ofSocketAddr address => exact socket address
  | fromStr h =>
    unfold SocksAddress.fromStr at h
    split at h
    · cases h
      exact socket _
    · obtain ⟨⟨host, port⟩, -, h⟩ := bind_eq_ok.1 h
      dsimp only at h
      split_ifs at h
      obtain ⟨port, -, h⟩ := bind_eq_ok.1 h
      exact roundTrips_domain h

/-- An encoded address is short. -/
theorem length_le_of_encode (h : SocksAddress.encode b64 t = ok w) : w.length ≤ 259 := by
  have name : ∀ {host : String} {port : UInt16}, IsWireString host → (domainWire host port).length ≤ 259 := by
    intro host port hw
    rw [length_domainWire]
    exact Nat.add_le_add_right hw.2 4
  match t with
  | .Ip (.v4 ip port) =>
    cases (encode_ipv4 b64 ip port).symm.trans h
    rw [length_ipv4Wire]
    omega
  | .Ip (.v6 ip port flowinfo scopeId) =>
    cases (encode_ipv6 b64 ip port flowinfo scopeId).symm.trans h
    rw [length_ipv6Wire]
    omega
  | .Domain host port =>
    obtain ⟨hw, rfl⟩ := (encode_domain_eq_ok b64).1 h
    exact name hw
  | .Custom network address =>
    obtain ⟨hw, rfl⟩ := (encode_custom_eq_ok b64).1 h
    exact name hw

end Wire

/-! ## What `recv` makes of one datagram -/

section Step

variable {σ : Type} {recvFrom : List UInt8 → σ → Option (Outcome Error Received × σ)} {s s' : σ}
  {buffer d : List UInt8} {peer source : SocksAddress}

/-- A datagram of the peer ends the call. -/
theorem recv_accept (h : recvFrom buffer s = some (Delivery.into buffer (ok (peer, d)), s')) (fuel : Nat) :
    recv recvFrom (some peer) (fuel + 1) buffer s =
      some (⟨ok (copyPayload buffer d).1, (copyPayload buffer d).2⟩, s') := by
  rw [into_ok] at h
  simp only [recv, recvPeer, h, if_true]

/-- A datagram of another source leaves the call waiting, if nothing else comes. -/
theorem recv_filtered (h : recvFrom buffer s = some (Delivery.into buffer (ok (source, d)), s')) (hne : source ≠ peer)
    (hwait : ∀ payload, recvFrom payload s' = none) : recv recvFrom (some peer) 2 buffer s = none := by
  rw [into_ok] at h
  simp only [recv, recvPeer, h, if_neg hne, hwait]

theorem recv_rejected {e : Error} (h : recvFrom buffer s = some (err e, s')) (fuel : Nat) :
    recv recvFrom (some peer) (fuel + 1) buffer s = some (⟨err e, buffer⟩, s') := by
  simp only [recv, recvPeer, h]

end Step

/-- The payload is cut to the buffer alone when the datagram or the buffer is short enough. -/
theorem copyPayload_take {buffer d : List UInt8} {k : Nat} (h : d.length ≤ k ∨ buffer.length ≤ k) :
    copyPayload buffer (d.take k) = copyPayload buffer d := by
  have hmin : min buffer.length (d.take k).length = min buffer.length d.length := by
    rw [List.length_take]
    omega
  rw [copyPayload, copyPayload, hmin, List.take_take]
  congr 3
  omega

theorem le_of_copyPayload_take {buffer d : List UInt8} {k : Nat}
    (h : (copyPayload buffer (d.take k)).1 = (copyPayload buffer d).1) : d.length ≤ k ∨ buffer.length ≤ k := by
  simp only [copyPayload, List.length_take] at h
  omega

section Association

variable {a : Association} {t : SocksAddress} {w d buffer : List UInt8}

/-- What an association reads of a datagram of its relay. -/
theorem recvAssociated_relay (hw : w.length ≤ 259) (rest : List Arrival) :
    a.recvAssociated buffer (.datagram a.relay ([0, 0, 0] ++ w ++ d) :: rest) =
      some ((datagramOf a.b64 (SOCKS_UDP_PREFIX ++ w ++ d.take (MAX_UDP_PAYLOAD - (3 + w.length)))).into buffer,
        rest) := by
  have htake : ([0, 0, 0] ++ w ++ d).take MAX_UDP_PAYLOAD =
      SOCKS_UDP_PREFIX ++ w ++ d.take (MAX_UDP_PAYLOAD - (3 + w.length)) := by
    have hlen : ([0, 0, 0] ++ w : List UInt8).length = 3 + w.length := by
      simp only [List.length_append, List.length_cons, List.length_nil]
    have hle : ([0, 0, 0] ++ w : List UInt8).length ≤ MAX_UDP_PAYLOAD := by
      rw [hlen]
      exact le_trans (Nat.add_le_add_left hw 3) (by decide)
    rw [List.take_append, List.take_of_length_le hle, hlen]
    rfl
  rw [Association.recvAssociated_eq, Association.nextDelivery, if_pos rfl, htake]
  rfl

/-- When a datagram with the address of the peer says that it comes from the peer, the wire carries this address. -/
theorem roundTrips_of_datagramOf {b64 : Base64.Engine} {x payload : List UInt8} (hw : SocksAddress.encode b64 t = ok w)
    (h : datagramOf b64 (SOCKS_UDP_PREFIX ++ w ++ x) = ok (t, payload)) : payload = x ∧ RoundTrips t := by
  obtain ⟨w', hsplit, hdec⟩ := (datagramOf_eq_ok b64).1 h
  obtain ⟨w₀, t₀, -, hlen, -, hw₀, -⟩ := decodePrefix_canonical b64 hdec
  have heq : w₀ = w := Outcome.ok.inj (hw₀.symm.trans hw)
  rw [List.append_assoc, List.append_assoc, List.append_cancel_left_eq] at hsplit
  obtain ⟨rfl, rfl⟩ := List.append_inj hsplit (by rw [← heq, hlen])
  exact ⟨rfl, (decodePrefix_encode_iff b64 hw x).1 hdec⟩

/-- An association hears its peer exactly when the wire carries the address of the peer. -/
theorem recv_associated_iff (hp : a.peerAddr = some t) (hw : SocksAddress.encode a.b64 t = ok w) :
    (∀ fuel rest, recv a.recvAssociated a.peerAddr (fuel + 1) buffer
        (.datagram a.relay ([0, 0, 0] ++ w ++ d) :: rest) =
      some (⟨ok (copyPayload buffer d).1, (copyPayload buffer d).2⟩, rest)) ↔
    RoundTrips t ∧ (3 + w.length + d.length ≤ MAX_UDP_PAYLOAD ∨ 3 + w.length + buffer.length ≤ MAX_UDP_PAYLOAD) := by
  have hlen := length_le_of_encode hw
  have hmax : 3 + w.length ≤ MAX_UDP_PAYLOAD := le_trans (Nat.add_le_add_left hlen 3) (by decide)
  have hrecv : ∀ rest : List Arrival, a.recvAssociated buffer (.datagram a.relay ([0, 0, 0] ++ w ++ d) :: rest) =
      some ((datagramOf a.b64 (SOCKS_UDP_PREFIX ++ w ++ d.take (MAX_UDP_PAYLOAD - (3 + w.length)))).into buffer,
        rest) :=
    recvAssociated_relay hlen
  generalize hk : MAX_UDP_PAYLOAD - (3 + w.length) = k at hrecv
  have hround := decodePrefix_encode_iff a.b64 hw (d.take k)
  rw [hp]
  constructor
  · intro h
    have hone := h 1 []
    cases hd : datagramOf a.b64 (SOCKS_UDP_PREFIX ++ w ++ d.take k) with
    | ok x =>
      obtain ⟨source, payload⟩ := x
      have hone' := hrecv []
      rw [hd] at hone'
      by_cases hs : source = t
      · subst hs
        rw [recv_accept hone'] at hone
        obtain ⟨rfl, hr⟩ := roundTrips_of_datagramOf hw hd
        have hcopied := Outcome.ok.inj (PeerReceived.mk.inj (Prod.mk.inj (Option.some.inj hone)).1).1
        have hsize := le_of_copyPayload_take hcopied
        exact ⟨hr, by omega⟩
      · rw [recv_filtered hone' hs (fun payload => by rw [Association.recvAssociated_eq]; rfl)] at hone
        cases hone
    | err e =>
      have hone' := hrecv []
      rw [hd] at hone'
      rw [recv_rejected hone'] at hone
      cases hone
    | panicked => exact absurd hd (datagramOf_ne_panicked a.b64 _)
  · rintro ⟨hr, hsize⟩ fuel rest
    have hd : datagramOf a.b64 (SOCKS_UDP_PREFIX ++ w ++ d.take k) = ok (t, d.take k) :=
      (datagramOf_eq_ok a.b64).2 ⟨w, rfl, hround.2 hr⟩
    have hone := hrecv rest
    rw [hd] at hone
    rw [recv_accept hone, copyPayload_take (by omega)]

end Association

/-- A framed stream hears its peer exactly when the header of a frame keeps the address of the peer. -/
theorem recv_framed_iff (target : SocketAddr) {d buffer : List UInt8} (fits : d.length < UInt16.size) :
    (∀ fuel rest ending, recv recvFramedFrom (some (.Ip target)) (fuel + 1) buffer
        ⟨(frameOf d target fits).bytes ++ rest, ending⟩ =
      some (⟨ok (copyPayload buffer d).1, (copyPayload buffer d).2⟩, ⟨rest, ending⟩)) ↔
    KeptByFrame target ∧ d.length ≤ MAX_UDP_PAYLOAD := by
  have hrecv := recvFramedFrom_frame buffer (frameOf d target fits)
  have hdelivery : (frameOf d target fits).delivery =
      if MAX_UDP_PAYLOAD < d.length then err .socksUdpPayloadTooLarge else ok (.Ip (unmapped target), d) := by
    rw [Frame.delivery, source_frameOf]
    rfl
  rw [hdelivery] at hrecv
  rw [← unmapped_eq_iff]
  by_cases hlen : MAX_UDP_PAYLOAD < d.length
  · simp only [if_pos hlen] at hrecv
    constructor
    · intro h
      have hone := h 0 [] none
      rw [recv_rejected (hrecv [] none)] at hone
      cases hone
    · rintro ⟨-, hle⟩
      exact absurd hlen (Nat.not_lt.2 hle)
  · simp only [if_neg hlen] at hrecv
    constructor
    · intro h
      refine ⟨?_, Nat.not_lt.1 hlen⟩
      by_contra hne
      have hone := h 1 [] none
      have hwait : ∀ payload, recvFramedFrom payload ⟨[], none⟩ = none := by
        intro payload
        simp only [recvFramedFrom]
        rw [recvFramed, Prog.readExact_bind, Prog.await_read_short (by decide)]
        rfl
      rw [recv_filtered (hrecv [] none) (fun hs => hne (SocksAddress.Ip.inj hs)) hwait] at hone
      cases hone
    · rintro ⟨hsame, -⟩ fuel rest ending
      have hone := hrecv rest ending
      rw [hsame] at hone
      exact recv_accept hone fuel

/-- **Which peers are heard.** A socket with a fixed peer, made from an address of the public constructors, gets the
next datagram that carries the address bytes of its peer: on an association exactly when the wire keeps this address
and the datagram is not cut short of the buffer, and on a framed stream exactly when a frame keeps it and the datagram
is not too large. -/
theorem peer_datagrams_received (b64 : Base64.Engine) (parseSocketAddr : String → Option SocketAddr)
    (performCommand : UInt8 → SocksAddress → Outcome Error (SocksAddress × Socket))
    (lookupHost : String → UInt16 → Outcome Error (List SocketAddr)) (t : SocksAddress)
    (h : Constructed b64 parseSocketAddr t) (d buffer : List UInt8) :
    (∀ bind sock w, udpAssociate performCommand lookupHost b64 bind t = ok sock → SocksAddress.encode b64 t = ok w →
      ((∀ fuel rest, recv sock.association.recvAssociated sock.association.peerAddr (fuel + 1) buffer
          (.datagram sock.association.relay ([0, 0, 0] ++ w ++ d) :: rest) =
        some (⟨ok (copyPayload buffer d).1, (copyPayload buffer d).2⟩, rest)) ↔
      KeptByWire t ∧ (3 + w.length + d.length ≤ 65507 ∨ 3 + w.length + buffer.length ≤ 65507))) ∧
    ∀ sock, connectUdp performCommand lookupHost t = ok sock →
      ∃ target, sock.peerAddr = some (.Ip target) ∧ ∀ fits : d.length < UInt16.size,
        ((∀ fuel rest ending, recv recvFramedFrom sock.peerAddr (fuel + 1) buffer
            ⟨(frameOf d target fits).bytes ++ rest, ending⟩ =
          some (⟨ok (copyPayload buffer d).1, (copyPayload buffer d).2⟩, ⟨rest, ending⟩)) ↔
        KeptByFrame target ∧ d.length ≤ 65507) := by
  refine ⟨fun bind sock w hs hw => ?_, fun sock hs => ?_⟩
  · obtain ⟨-, -, -, -, -, -, rfl, hp⟩ := udpAssociate_eq_ok hs
    rw [← roundTrips_of_constructed h]
    exact recv_associated_iff hp hw
  · obtain ⟨target, hp⟩ := exists_ip_of_connectUdp hs
    refine ⟨target, hp, fun fits => ?_⟩
    rw [hp]
    exact recv_framed_iff target fits

/-- A proxy that gives an address, and nothing more. -/
def performOnly (address : SocksAddress) (_ : UInt8) (_ : SocksAddress) : Outcome Error (SocksAddress × Socket) :=
  ok (address, ⟨[], .eof, ⟨[], none⟩⟩)

/-- The answer of a name server to a socket with this server as its peer. -/
theorem peer_datagrams_received_answer :
    let server := SocksAddress.Ip (.v4 (Ipv4Addr.new 1 1 1 1) 53)
    let relay := SocketAddr.v4 (Ipv4Addr.new 10 0 0 1) 1080
    ∃ sock, udpAssociate (performOnly (.Ip relay)) (fun _ _ => ok []) Base64.standardNoPad ok server = ok sock ∧
      recv sock.association.recvAssociated sock.association.peerAddr 1 [0, 0, 0]
        [.datagram relay ([0, 0, 0] ++ ipv4Wire (Ipv4Addr.new 1 1 1 1) 53 ++ [0x68, 0x69])] =
          some (⟨ok 2, [0x68, 0x69, 0]⟩, []) := by
  intro server relay
  refine ⟨_, rfl, ?_⟩
  have h := (peer_datagrams_received Base64.standardNoPad (fun _ => none) (performOnly (.Ip relay)) (fun _ _ => ok [])
    server (.ofSocketAddr _) [0x68, 0x69] [0, 0, 0]).1 ok _ _ rfl (encode_ipv4 _ _ _)
  exact h.2 ⟨trivial, by decide⟩ 0 []

/-- A peer with a scope is not heard on an association, and an IPv4-mapped one not on a framed stream. -/
theorem peer_datagrams_filtered :
    (¬ ∀ (b64 : Base64.Engine) (parseSocketAddr : String → Option SocketAddr)
        (performCommand : UInt8 → SocksAddress → Outcome Error (SocksAddress × Socket))
        (lookupHost : String → UInt16 → Outcome Error (List SocketAddr))
        (bind : SocketAddr → Outcome Error SocketAddr) (t : SocksAddress) (sock : AssociatedSocket)
        (w d buffer : List UInt8), Constructed b64 parseSocketAddr t →
      udpAssociate performCommand lookupHost b64 bind t = ok sock → SocksAddress.encode b64 t = ok w →
      ∀ fuel rest, recv sock.association.recvAssociated sock.association.peerAddr (fuel + 1) buffer
          (.datagram sock.association.relay ([0, 0, 0] ++ w ++ d) :: rest) =
        some (⟨ok (copyPayload buffer d).1, (copyPayload buffer d).2⟩, rest)) ∧
    ¬ ∀ (b64 : Base64.Engine) (parseSocketAddr : String → Option SocketAddr)
        (performCommand : UInt8 → SocksAddress → Outcome Error (SocksAddress × Socket))
        (lookupHost : String → UInt16 → Outcome Error (List SocketAddr)) (t : SocksAddress) (sock : FramedSocket)
        (target : SocketAddr) (d buffer : List UInt8) (fits : d.length < UInt16.size),
      Constructed b64 parseSocketAddr t → connectUdp performCommand lookupHost t = ok sock →
      sock.peerAddr = some (.Ip target) →
      ∀ fuel rest ending, recv recvFramedFrom sock.peerAddr (fuel + 1) buffer
          ⟨(frameOf d target fits).bytes ++ rest, ending⟩ =
        some (⟨ok (copyPayload buffer d).1, (copyPayload buffer d).2⟩, ⟨rest, ending⟩) := by
  constructor
  · intro h
    -- a link-local address with scope 2
    let t : SocketAddr := .v6 ⟨#v[0xfe, 0x80, 0, 0, 0, 0, 0, 0, 0, 0, 0, 0, 0, 0, 0, 1]⟩ 53 0 2
    let relay : SocksAddress := .Ip (.v4 (Ipv4Addr.new 10 0 0 1) 1080)
    have hall := h Base64.standardNoPad (fun _ => none) (performOnly relay) (fun _ _ => ok []) ok (.Ip t) _ _
      [0x68] [0] (.ofSocketAddr t) rfl (encode_ipv6 _ _ _ _ _)
    have hround := (recv_associated_iff rfl (encode_ipv6 _ _ _ _ _)).1 hall
    exact absurd hround.1.2 (by decide)
  · intro h
    -- the IPv4-mapped form of 1.2.3.4
    let t : SocketAddr := .v6 (Ipv4Addr.new 1 2 3 4).toIpv6Mapped 53 0 0
    have hall := h Base64.standardNoPad (fun _ => none) (performOnly (.Ip t)) (fun _ _ => ok []) (.Ip t) _ t
      [0x68] [0] (by decide) (.ofSocketAddr t) rfl rfl
    have hkept := ((recv_framed_iff t (by decide)).1 hall).1
    exact absurd hkept.1 (by decide +kernel)

end LzcSdk.RemoteSocks
