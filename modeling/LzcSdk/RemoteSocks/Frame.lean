import LzcSdk.RemoteSocks.Udp

/-!
# Datagrams framed on a stream

The `0xe2` and `0xe3` transports carry datagrams over the byte stream of a command: a header of twenty bytes (the
length of the payload, the sixteen octets of an address and a port), then the payload. `sendFramed` writes one frame
and `recvFramed` reads one; `Frame` is a well-formed frame and `Frame.bytes` its bytes.

**A frame is read as a whole** (`eval_recvFramed`): with a frame at the front of the stream the receiver takes exactly
this frame, also when the datagram is too large to return or longer than the caller's buffer. A stream that ends
before the end of a frame is an error (`eval_recvFramed_cut`). What a sender writes is a frame (`sendFramed_ip`),
and its source reads as the target of the send (`source_frameOf`).
-/

namespace LzcSdk.RemoteSocks

open Outcome ByteIo

abbrev FRAMED_UDP_HEADER_LENGTH : Nat := 20

/-- The octets of an address; those of an IPv4 address are of its IPv4-mapped form. -/
def ipOctets : IpAddr → Vector UInt8 16
  | .v4 ip => ip.toIpv6Mapped.octets
  | .v6 ip => ip.octets

/-- `u16::try_from`. -/
def u16TryFrom (n : Nat) : Option UInt16 := if n < UInt16.size then some (UInt16.ofNat n) else none

/-- Write one datagram; the target and the length are checked before the writer is locked. -/
def sendFramed (payload : List UInt8) (target : SocksAddress) : Outcome Error (Prog Error Nat) := do
  let target ← concreteIpAddress target
  let length ← okOr .socksUdpPayloadTooLarge (u16TryFrom payload.length)
  let header := Bytes.beBytes length ++ (ipOctets target.ip).toList ++ Bytes.beBytes target.port
  ok do
    Prog.writeAll header
    Prog.writeAll payload
    return payload.length

/-- What the receiver makes of a header and the datagram behind it. -/
def unframe (payload : List UInt8) (header : Vector UInt8 FRAMED_UDP_HEADER_LENGTH) (length : Nat)
    (datagram : List UInt8) : Outcome Error Received :=
  if MAX_UDP_PAYLOAD < length then err .socksUdpPayloadTooLarge
  else do
    let octets ← okOr .invalidSocksUdpHeader (Bytes.vector? 16 ((header.toList.drop 2).take 16))
    let ipv6 : Ipv6Addr := ⟨octets⟩
    let ip := (ipv6.toIpv4Mapped.map IpAddr.v4).getD (.v6 ipv6)
    let port := Bytes.ofBeBytes header[18] header[19]
    let (copied, payload) := copyPayload payload datagram
    return ⟨copied, .Ip (SocketAddr.new ip port), payload⟩

/-- Read one datagram into the caller's buffer. -/
def recvFramed (payload : List UInt8) : Prog Error Received := do
  let header ← Prog.readExact FRAMED_UDP_HEADER_LENGTH
  let length := (Bytes.ofBeBytes header[0] header[1]).toNat
  let datagram ← Prog.readExact length
  .ret (unframe payload header length datagram.toList)

/-! ## Frames -/

/-- A frame: the fields of its header and the payload, whose length fits the length field. -/
structure Frame where
  octets : Vector UInt8 16
  port : UInt16
  payload : List UInt8
  fits : payload.length < UInt16.size

namespace Frame

/-- The header. -/
def header (f : Frame) : Vector UInt8 FRAMED_UDP_HEADER_LENGTH :=
  ⟨(Bytes.beBytes (UInt16.ofNat f.payload.length) ++ f.octets.toList ++ Bytes.beBytes f.port).toArray, by simp⟩

/-- The bytes on the stream. -/
def bytes (f : Frame) : List UInt8 := f.header.toList ++ f.payload

/-- The source that a receiver reports; an IPv4-mapped address is reported as IPv4. -/
def source (f : Frame) : SocksAddress :=
  let ipv6 : Ipv6Addr := ⟨f.octets⟩
  .Ip (SocketAddr.new ((ipv6.toIpv4Mapped.map IpAddr.v4).getD (.v6 ipv6)) f.port)

/-- What a receiver with this buffer gets. -/
def received (buffer : List UInt8) (f : Frame) : Received :=
  ⟨(copyPayload buffer f.payload).1, f.source, (copyPayload buffer f.payload).2⟩

/-- The result of receiving this frame. -/
def deliver (buffer : List UInt8) (f : Frame) : Outcome Error Received :=
  if MAX_UDP_PAYLOAD < f.payload.length then err .socksUdpPayloadTooLarge else ok (f.received buffer)

theorem toList_header (f : Frame) :
    f.header.toList = Bytes.beBytes (UInt16.ofNat f.payload.length) ++ f.octets.toList ++ Bytes.beBytes f.port := rfl

theorem length_bytes (f : Frame) : f.bytes.length = 20 + f.payload.length := by
  simp [bytes]

theorem bytes_ne_nil (f : Frame) : f.bytes ≠ [] :=
  List.ne_nil_of_length_pos (by rw [length_bytes]; omega)

/-- The length field. -/
theorem length_header (f : Frame) : (Bytes.ofBeBytes f.header[0] f.header[1]).toNat = f.payload.length := by
  have h : Bytes.ofBeBytes f.header[0] f.header[1] = UInt16.ofNat f.payload.length := Bytes.ofBeBytes_beBytes _
  rw [h, UInt16.toNat_ofNat', Nat.mod_eq_of_lt f.fits]

/-- The address field. -/
theorem octets_header (f : Frame) : (f.header.toList.drop 2).take 16 = f.octets.toList := by
  rw [toList_header, List.append_assoc, List.drop_left' (Bytes.length_beBytes _)]
  exact List.take_left' f.octets.length_toList

/-- The port field. -/
theorem port_header (f : Frame) : Bytes.ofBeBytes f.header[18] f.header[19] = f.port := by
  have h : f.header[18] = (Bytes.beBytes f.port)[0] ∧ f.header[19] = (Bytes.beBytes f.port)[1] := by
    constructor <;> simp [header, List.getElem_append] <;> rfl
  rw [h.1, h.2]
  exact Bytes.ofBeBytes_beBytes f.port

end Frame

/-! ## Receiving -/

section Receive

variable {e : Ending} {k : Sink} (buffer : List UInt8)

/-- The receiver after a header. -/
theorem eval_recvFramed_header (header : Vector UInt8 20) (rest : List UInt8) :
    (recvFramed buffer).eval ⟨header.toList ++ rest, e, k⟩ =
      (Prog.read (Bytes.ofBeBytes header[0] header[1]).toNat fun datagram =>
        .ret (unframe buffer header (Bytes.ofBeBytes header[0] header[1]).toNat datagram.toList)).eval ⟨rest, e, k⟩ :=
  Prog.eval_read_append header rest

theorem unframe_frame (f : Frame) : unframe buffer f.header f.payload.length f.payload = f.deliver buffer := by
  rw [unframe, f.octets_header, Bytes.vector?_toList, f.port_header]
  rfl

/-- A frame at the front of a stream does not make the receiver wait. -/
theorem await_recvFramed (f : Frame) (rest : List UInt8) :
    (recvFramed buffer).await ⟨f.bytes ++ rest, e, k⟩ = some (f.deliver buffer, ⟨rest, e, k⟩) := by
  have hread : (recvFramed buffer).await ⟨f.bytes ++ rest, e, k⟩ =
      (Prog.read (Bytes.ofBeBytes f.header[0] f.header[1]).toNat fun datagram =>
        .ret (unframe buffer f.header (Bytes.ofBeBytes f.header[0] f.header[1]).toNat datagram.toList) :
          Prog Error Received).await ⟨f.payload ++ rest, e, k⟩ := by
    rw [Frame.bytes, List.append_assoc]
    exact Prog.await_read_append f.header _
  let datagram : Vector UInt8 (Bytes.ofBeBytes f.header[0] f.header[1]).toNat :=
    ⟨f.payload.toArray, by simpa using f.length_header.symm⟩
  have hpayload : datagram.toList = f.payload := rfl
  rw [hread, ← hpayload, Prog.await_read_append datagram rest, Prog.await, hpayload, f.length_header, unframe_frame]

/-- **A frame is read as a whole**, whatever becomes of its datagram. -/
theorem eval_recvFramed (f : Frame) (rest : List UInt8) :
    (recvFramed buffer).eval ⟨f.bytes ++ rest, e, k⟩ = (f.deliver buffer, ⟨rest, e, k⟩) :=
  Prog.eval_of_await _ (await_recvFramed buffer f rest)

/-- A proper part of a frame ends in the header or in the payload. -/
theorem Frame.cut_cases (f : Frame) {part : List UInt8} (hpart : part <+: f.bytes) (hne : part ≠ f.bytes) :
    part.length < 20 ∨ ∃ datagram, part = f.header.toList ++ datagram ∧
      datagram.length < (Bytes.ofBeBytes f.header[0] f.header[1]).toNat := by
  obtain ⟨missing, hm⟩ := hpart
  have hlen : part.length < f.bytes.length := by
    have hpos : 0 < missing.length := List.length_pos_iff.2 fun h => hne (by rw [← hm, h, List.append_nil])
    rw [← hm, List.length_append]
    omega
  by_cases h20 : part.length < 20
  · exact .inl h20
  · -- the header is complete, the payload is not
    have hle : f.header.toList.length ≤ part.length := by rw [Vector.length_toList]; exact Nat.not_lt.1 h20
    have hpre : f.header.toList <+: part :=
      List.prefix_of_prefix_length_le (List.prefix_append _ f.payload) ⟨missing, hm⟩ hle
    obtain ⟨datagram, rfl⟩ := hpre
    rw [f.length_bytes, List.length_append, Vector.length_toList] at hlen
    exact .inr ⟨datagram, rfl, by rw [f.length_header]; exact Nat.lt_of_add_lt_add_left hlen⟩

/-- A stream that ends inside a frame is read to its end. -/
theorem eval_recvFramed_cut (f : Frame) {part : List UInt8} (hpart : part <+: f.bytes) (hne : part ≠ f.bytes) :
    (recvFramed buffer).eval ⟨part, e, k⟩ = (err (fromIo e.error), ⟨[], e, k⟩) := by
  rcases f.cut_cases hpart hne with h20 | ⟨datagram, rfl, hlen⟩
  · exact Prog.eval_read_short h20
  · rw [eval_recvFramed_header]
    exact Prog.eval_read_short hlen

/-- An ended stream has no frame. -/
theorem eval_recvFramed_nil : (recvFramed buffer).eval ⟨[], e, k⟩ = (err (fromIo e.error), ⟨[], e, k⟩) :=
  Prog.eval_read_short (by decide)

/-- A part of a frame on a stream that stays open makes the receiver wait. -/
theorem await_recvFramed_cut (f : Frame) {part : List UInt8} (hpart : part <+: f.bytes) (hne : part ≠ f.bytes) :
    (recvFramed buffer).await ⟨part, e, k⟩ = none := by
  rcases f.cut_cases hpart hne with h20 | ⟨datagram, rfl, hlen⟩
  · exact Prog.await_read_short h20
  · rw [recvFramed, Prog.readExact_bind, Prog.await_read_append f.header]
    exact Prog.await_read_short hlen

end Receive

/-! ## Sending -/

/-- Write a frame. -/
def Frame.write (f : Frame) : Prog Error Nat := do
  Prog.writeAll f.header.toList
  Prog.writeAll f.payload
  return f.payload.length

/-- The frame of a payload for a target. -/
def frameOf (payload : List UInt8) (target : SocketAddr) (fits : payload.length < UInt16.size) : Frame :=
  ⟨ipOctets target.ip, target.port, payload, fits⟩

/-- A socket address as a receiver reports it: an IPv4-mapped address as IPv4, without flow label and scope. -/
def unmapped : SocketAddr → SocketAddr
  | .v4 ip port => .v4 ip port
  | .v6 ip port _ _ =>
    match ip.toIpv4Mapped with
    | some ip => .v4 ip port
    | none => .v6 ip port 0 0

theorem sendFramed_ip {payload : List UInt8} (target : SocketAddr) (fits : payload.length < UInt16.size) :
    sendFramed payload (.Ip target) = ok (frameOf payload target fits).write := by
  simp only [sendFramed, concreteIpAddress, u16TryFrom, if_pos fits, ok_bind, okOr_some]
  rfl

/-- The source of a frame is the target it was sent to. -/
theorem source_frameOf {payload : List UInt8} (target : SocketAddr) (fits : payload.length < UInt16.size) :
    (frameOf payload target fits).source = .Ip (unmapped target) := by
  cases target with
  | v4 ip port =>
    show SocksAddress.Ip (SocketAddr.new ((ip.toIpv6Mapped.toIpv4Mapped.map IpAddr.v4).getD _) port) = _
    rw [toIpv4Mapped_toIpv6Mapped]
    rfl
  | v6 ip port flowinfo scopeId =>
    obtain ⟨octets⟩ := ip
    simp only [Frame.source, frameOf, SocketAddr.ip, ipOctets, unmapped, SocketAddr.port]
    cases (Ipv6Addr.mk octets).toIpv4Mapped <;> rfl

/-- Writing a frame writes its bytes, or a part of them on a connection that fails. -/
theorem eval_write_frame (f : Frame) (w : Wire) : f.write.eval w =
    (if (w.sink.writeAll f.bytes).1 then ok f.payload.length else err (fromIo brokenPipe),
      { w with sink := (w.sink.writeAll f.bytes).2 }) := by
  have h : f.write.eval w = (Prog.write f.bytes (.ret (ok f.payload.length))).eval w := Prog.eval_write_append _ _ _ w
  rw [h, Prog.eval]
  split <;> simp

end LzcSdk.RemoteSocks
