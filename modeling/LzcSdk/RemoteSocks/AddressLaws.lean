import LzcSdk.RemoteSocks.AddressCodec

/-!
# Laws of the address codec

* The values that survive encoding and decoding are exactly the `RoundTrips` ones (`codec_round_trip`).
* A domain address stays a domain address on the wire exactly when it does not look like a custom name
  (`domain_kept_iff`); `SocksAddress.domain` lets the others through (`domain_read_as_custom`).
* What the decoder accepts is the encoding of what it returns, byte for byte (`decode_canonical`).
-/

namespace LzcSdk.RemoteSocks

open Outcome

section Laws

variable (b64 : Base64.Engine)

/-! ## Encodings are wire forms -/

theorem encode_ipv4 (ip : Ipv4Addr) (port : UInt16) :
    SocksAddress.encode b64 (.Ip (.v4 ip port)) = ok (ipv4Wire ip port) := by
  simp [SocksAddress.encode, ipv4Wire]

theorem encode_ipv6 (ip : Ipv6Addr) (port : UInt16) (flowinfo scopeId : UInt32) :
    SocksAddress.encode b64 (.Ip (.v6 ip port flowinfo scopeId)) = ok (ipv6Wire ip port) := by
  simp [SocksAddress.encode, ipv6Wire]

theorem encode_domain_eq_ok {host : String} {port : UInt16} {w : List UInt8} :
    SocksAddress.encode b64 (.Domain host port) = ok w ↔ IsWireString host ∧ w = domainWire host port := by
  simp [SocksAddress.encode, encodeDomain_eq_ok]

theorem encode_custom_eq_ok {network address : String} {w : List UInt8} :
    SocksAddress.encode b64 (.Custom network address) = ok w ↔
      IsWireString (encodeCustomDomain b64 network address) ∧
        w = domainWire (encodeCustomDomain b64 network address) 0 := by
  simp [SocksAddress.encode, encodeDomain_eq_ok]

/-- Every value of the domain constructor is encoded. -/
theorem encode_of_domain {host : String} {port : UInt16} {a : SocksAddress} (h : SocksAddress.domain host port = ok a) :
    SocksAddress.encode b64 a = ok (domainWire host port) := by
  obtain ⟨hh, rfl⟩ := domain_eq_ok.1 h
  exact (encode_domain_eq_ok b64).2 ⟨hh.1, rfl⟩

/-- Every value of the custom constructor is encoded. -/
theorem encode_of_custom {network address : String} {a : SocksAddress}
    (h : SocksAddress.custom b64 network address = ok a) :
    SocksAddress.encode b64 a = ok (domainWire (encodeCustomDomain b64 network address) 0) := by
  obtain ⟨-, hw, rfl⟩ := (custom_eq_ok b64).1 h
  exact (encode_custom_eq_ok b64).2 ⟨hw, rfl⟩

/-- A name the decoder accepts is encoded as it was. -/
theorem encode_of_decodeName {host : String} {port : UInt16} {a : SocksAddress} (h : decodeName b64 host port = ok a) :
    SocksAddress.encode b64 a = ok (domainWire host port) := by
  rcases (decodeName_eq_ok b64).1 h with ⟨rfl, network, address, rfl, -, hw, rfl⟩ | ⟨-, hh, rfl⟩
  · exact (encode_custom_eq_ok b64).2 ⟨hw, rfl⟩
  · exact (encode_domain_eq_ok b64).2 ⟨hh.1, rfl⟩

/-! ## Decoding exactly one address -/

theorem decode_eq_ok {w : List UInt8} {a : SocksAddress} :
    SocksAddress.decode b64 w = ok a ↔ SocksAddress.decodePrefix b64 w = ok (a, w.length) := by
  unfold SocksAddress.decode
  rw [bind_eq_ok]
  constructor
  · rintro ⟨⟨a', n⟩, hp, h⟩
    dsimp only at h
    split_ifs at h with hn
    · simp only [ne_eq, not_not] at hn
      cases h
      rw [hp, hn]
  · intro h
    exact ⟨(a, w.length), h, by simp⟩

/-- A byte string decoded whole is a wire form. -/
theorem wire_of_decode {w : List UInt8} {a : SocksAddress} (h : SocksAddress.decode b64 w = ok a) :
    (∃ ip port, w = ipv4Wire ip port) ∨ (∃ ip port, w = ipv6Wire ip port) ∨
      (∃ host port, w = domainWire host port ∧ IsWireString host) := by
  have drop_tail : ∀ {wire t : List UInt8}, (wire ++ t).length = wire.length → wire ++ t = wire := by
    intro wire t hl
    have ht : t = [] := by simpa using hl
    rw [ht, List.append_nil]
  rcases decodePrefix_eq_ok b64 ((decode_eq_ok b64).1 h) with ⟨ip, port, t, rfl, -, hn⟩ | ⟨ip, port, t, rfl, -, hn⟩ |
    ⟨host, port, t, rfl, hw, -, hn⟩
  · exact Or.inl ⟨ip, port, drop_tail (by rw [hn, length_ipv4Wire])⟩
  · exact Or.inr (Or.inl ⟨ip, port, drop_tail (by rw [hn, length_ipv6Wire])⟩)
  · exact Or.inr (Or.inr ⟨host, port, drop_tail (by rw [hn, length_domainWire]), hw⟩)

theorem decode_ne_panicked (b : List UInt8) : SocksAddress.decode b64 b ≠ panicked := by
  unfold SocksAddress.decode
  intro h
  rcases bind_eq_panicked.1 h with h | ⟨⟨a, n⟩, -, h⟩
  · exact decodePrefix_ne_panicked b64 b h
  · dsimp only at h
    split_ifs at h

/-! ## Round trip -/

/-- The values that the wire carries without loss. -/
def RoundTrips : SocksAddress → Prop
  | .Ip (.v4 _ _) => True
  | .Ip (.v6 _ _ flowinfo scopeId) => flowinfo = 0 ∧ scopeId = 0
  | .Domain host port =>
    SocksAddress.domain host port = ok (.Domain host port) ∧
      ¬ (port = 0 ∧ Text.endsWith host CUSTOM_SUFFIX = true)
  | .Custom network _ => network ≠ ""

theorem decodePrefix_encode_iff {a : SocksAddress} {w : List UInt8} (h : SocksAddress.encode b64 a = ok w)
    (t : List UInt8) : SocksAddress.decodePrefix b64 (w ++ t) = ok (a, w.length) ↔ RoundTrips a := by
  match a with
  | .Ip (.v4 ip port) =>
    cases (encode_ipv4 b64 ip port).symm.trans h
    simp [decodePrefix_ipv4Wire, RoundTrips]
  | .Ip (.v6 ip port flowinfo scopeId) =>
    cases (encode_ipv6 b64 ip port flowinfo scopeId).symm.trans h
    simp [decodePrefix_ipv6Wire, RoundTrips, eq_comm]
  | .Domain host port =>
    obtain ⟨hw, rfl⟩ := (encode_domain_eq_ok b64).1 h
    rw [decodePrefix_domainWire b64 hw, length_domainWire]
    simp only [pure_eq, bind_ok_eq_ok, Prod.mk.injEq, and_true, exists_eq_right, decodeName_eq_ok, RoundTrips,
      domain_eq_ok]
    constructor
    · rintro (⟨-, n, x, -, -, -, hd⟩ | ⟨hc, hh⟩)
      · cases hd
      · exact ⟨hh, hc⟩
    · exact fun hr => Or.inr ⟨hr.2, hr.1⟩
  | .Custom network address =>
    obtain ⟨hw, rfl⟩ := (encode_custom_eq_ok b64).1 h
    rw [decodePrefix_domainWire b64 hw, length_domainWire]
    simp only [pure_eq, bind_ok_eq_ok, Prod.mk.injEq, and_true, exists_eq_right, decodeName_eq_ok, RoundTrips]
    constructor
    · rintro (⟨-, n, x, -, hn, -, hc⟩ | ⟨-, -, hd⟩)
      · cases hc; exact hn
      · cases hd
    · exact fun hn => Or.inl ⟨trivial, network, address, rfl, hn, hw, rfl⟩

theorem decode_encode_iff {a : SocksAddress} {w : List UInt8} (h : SocksAddress.encode b64 a = ok w) :
    SocksAddress.decode b64 w = ok a ↔ RoundTrips a := by
  have hp := decodePrefix_encode_iff b64 h []
  rw [List.append_nil] at hp
  rw [decode_eq_ok, hp]

/-- **The round-trip domain.** An encoded address is decoded again exactly when it is one the wire carries without
loss, whatever bytes follow it; and both constructors only build addresses that are encoded. -/
theorem codec_round_trip :
    (∀ (a : SocksAddress) (w t : List UInt8), SocksAddress.encode b64 a = ok w →
      (SocksAddress.decodePrefix b64 (w ++ t) = ok (a, w.length) ↔ RoundTrips a) ∧
      (SocksAddress.decode b64 w = ok a ↔ RoundTrips a)) ∧
    (∀ (host : String) (port : UInt16) (a : SocksAddress), SocksAddress.domain host port = ok a →
      ∃ w, SocksAddress.encode b64 a = ok w) ∧
    (∀ (network address : String) (a : SocksAddress), SocksAddress.custom b64 network address = ok a →
      ∃ w, SocksAddress.encode b64 a = ok w) :=
  ⟨fun _ _ t h => ⟨decodePrefix_encode_iff b64 h t, decode_encode_iff b64 h⟩,
    fun _ _ _ h => ⟨_, encode_of_domain b64 h⟩, fun _ _ _ h => ⟨_, encode_of_custom b64 h⟩⟩

/-- The wire form of the custom address `/tmp/socket` on the network `unix`. -/
def unixSocketWire : List UInt8 := domainWire "dW5peA.L3RtcC9zb2NrZXQ.custom" 0

theorem codec_round_trip_unix :
    SocksAddress.decode Base64.standardNoPad unixSocketWire = ok (.Custom "unix" "/tmp/socket") :=
  (((codec_round_trip Base64.standardNoPad).1 (.Custom "unix" "/tmp/socket") unixSocketWire []
    (by decide +kernel)).2).2 (by decide : "unix" ≠ "")

/-! ## Names that look like custom addresses -/

/-- An address that its encoding keeps a domain address: decoding yields one, and no custom address is encoded the
same way. -/
def DomainKept (a : SocksAddress) : Prop :=
  (∃ w host port, SocksAddress.encode b64 a = ok w ∧ SocksAddress.decode b64 w = ok (.Domain host port)) ∧
    ∀ network address c, SocksAddress.custom b64 network address = ok c →
      SocksAddress.encode b64 a ≠ SocksAddress.encode b64 c

/-- A name with port `0` and the custom suffix is never decoded as a domain address. -/
theorem not_domainKept {host : String} (hw : IsWireString host) (hs : Text.endsWith host CUSTOM_SUFFIX = true) :
    ¬ DomainKept b64 (.Domain host 0) := by
  rintro ⟨⟨w, host', port', he, hd⟩, -⟩
  obtain ⟨-, rfl⟩ := (encode_domain_eq_ok b64).1 he
  rw [decode_eq_ok, ← List.append_nil (domainWire host 0), decodePrefix_domainWire b64 hw] at hd
  obtain ⟨a, ha, hn⟩ := bind_eq_ok.1 hd
  obtain ⟨rfl, -⟩ := Prod.mk.inj (Outcome.ok.inj hn)
  rcases (decodeName_eq_ok b64).1 ha with ⟨-, n, x, -, -, -, hc⟩ | ⟨hc, -⟩
  · cases hc
  · exact hc ⟨rfl, hs⟩

/-- **When a domain address stays one.** A value of the domain constructor is kept a domain address by the wire exactly
when it does not have both port `0` and a host that ends in `.custom`. -/
theorem domain_kept_iff {host : String} {port : UInt16} {a : SocksAddress} (h : SocksAddress.domain host port = ok a) :
    DomainKept b64 a ↔ ¬ (port = 0 ∧ Text.endsWith host CUSTOM_SUFFIX = true) := by
  obtain ⟨hh, rfl⟩ := domain_eq_ok.1 h
  constructor
  · rintro hk ⟨rfl, hs⟩
    exact not_domainKept b64 hh.1 hs hk
  · intro hc
    have he := encode_of_domain b64 h
    have hd := (decode_encode_iff b64 he).2 ⟨h, hc⟩
    refine ⟨⟨_, host, port, he, hd⟩, fun network address c hcustom hsame => ?_⟩
    have hce := encode_of_custom b64 hcustom
    obtain ⟨hn, -, rfl⟩ := (custom_eq_ok b64).1 hcustom
    -- one wire form would decode to both
    have hww := Outcome.ok.inj (he.symm.trans (hsame.trans hce))
    have hcd := (decode_encode_iff b64 hce).2 hn
    rw [← hww, hd] at hcd
    cases hcd

theorem domain_kept_example_com : DomainKept Base64.standardNoPad (.Domain "example.com" 443) :=
  (domain_kept_iff Base64.standardNoPad (by decide +kernel : SocksAddress.domain "example.com" 443 = ok _)).2
    (by decide)

/-- The constructor accepts a host that the wire turns into a unix socket path. -/
theorem domain_read_as_custom :
    SocksAddress.domain "dW5peA.L3RtcC9zb2NrZXQ.custom" 0 = ok (.Domain "dW5peA.L3RtcC9zb2NrZXQ.custom" 0) ∧
    SocksAddress.custom Base64.standardNoPad "unix" "/tmp/socket" = ok (.Custom "unix" "/tmp/socket") ∧
    SocksAddress.encode Base64.standardNoPad (.Domain "dW5peA.L3RtcC9zb2NrZXQ.custom" 0) = ok unixSocketWire ∧
    SocksAddress.encode Base64.standardNoPad (.Custom "unix" "/tmp/socket") = ok unixSocketWire ∧
    SocksAddress.decode Base64.standardNoPad unixSocketWire = ok (.Custom "unix" "/tmp/socket") ∧
    ¬ DomainKept Base64.standardNoPad (.Domain "dW5peA.L3RtcC9zb2NrZXQ.custom" 0) :=
  ⟨by decide +kernel, by decide +kernel, by decide +kernel, by decide +kernel, by decide +kernel,
    not_domainKept _ (by decide) (by decide)⟩

/-! ## Canonical form -/

/-- What the decoder takes off the front is the encoding of what it returns. -/
theorem decodePrefix_canonical {b : List UInt8} {a : SocksAddress} {n : Nat}
    (h : SocksAddress.decodePrefix b64 b = ok (a, n)) :
    ∃ w t, b = w ++ t ∧ w.length = n ∧ 1 ≤ n ∧ SocksAddress.encode b64 a = ok w ∧
      ∀ t', SocksAddress.decodePrefix b64 (w ++ t') = ok (a, n) := by
  rcases decodePrefix_eq_ok b64 h with ⟨ip, port, t, rfl, rfl, rfl⟩ | ⟨ip, port, t, rfl, rfl, rfl⟩ |
    ⟨host, port, t, rfl, hw, hd, rfl⟩
  · exact ⟨_, t, rfl, length_ipv4Wire ip port, by omega, encode_ipv4 b64 ip port, decodePrefix_ipv4Wire b64 ip port⟩
  · exact ⟨_, t, rfl, length_ipv6Wire ip port, by omega, encode_ipv6 b64 ip port 0 0,
      decodePrefix_ipv6Wire b64 ip port⟩
  · refine ⟨_, t, rfl, length_domainWire host port, by omega, encode_of_decodeName b64 hd, fun t' => ?_⟩
    rw [decodePrefix_domainWire b64 hw, hd]
    rfl

theorem encode_of_decode {b : List UInt8} {a : SocksAddress} (h : SocksAddress.decode b64 b = ok a) :
    SocksAddress.encode b64 a = ok b := by
  obtain ⟨w, t, rfl, hn, -, he, -⟩ := decodePrefix_canonical b64 ((decode_eq_ok b64).1 h)
  rw [List.length_append] at hn
  have ht : t = [] := List.length_eq_zero_iff.1 (by omega)
  rw [ht, List.append_nil]
  exact he

/-- **Canonical decoding.** What the decoder takes off the front is, byte for byte, the encoding of what it returns,
whatever follows; so no two byte strings decode to the same address, a decoded address is sent back unchanged, and on
no input is a slice or an index out of range. -/
theorem decode_canonical (b : List UInt8) :
    (∀ a n, SocksAddress.decodePrefix b64 b = ok (a, n) →
      1 ≤ n ∧ n ≤ b.length ∧ SocksAddress.encode b64 a = ok (b.take n) ∧
      ∀ t, SocksAddress.decodePrefix b64 (b.take n ++ t) = ok (a, n)) ∧
    (∀ a, SocksAddress.decode b64 b = ok a → SocksAddress.encode b64 a = ok b) ∧
    (∀ a b', SocksAddress.decode b64 b = ok a → SocksAddress.decode b64 b' = ok a → b = b') ∧
    SocksAddress.decodePrefix b64 b ≠ panicked ∧ SocksAddress.decode b64 b ≠ panicked := by
  refine ⟨fun a n h => ?_, fun a h => encode_of_decode b64 h, fun a b' h h' => ?_, decodePrefix_ne_panicked b64 b,
    decode_ne_panicked b64 b⟩
  · obtain ⟨w, t, rfl, rfl, h1, he, hp⟩ := decodePrefix_canonical b64 h
    rw [List.take_left' rfl]
    exact ⟨h1, by simp, he, hp⟩
  · have he := (encode_of_decode b64 h).symm.trans (encode_of_decode b64 h')
    exact Outcome.ok.inj he

theorem decode_canonical_unix :
    SocksAddress.encode Base64.standardNoPad (.Custom "unix" "/tmp/socket") = ok unixSocketWire :=
  (decode_canonical Base64.standardNoPad unixSocketWire).2.1 _ (by decide +kernel)

end Laws

end LzcSdk.RemoteSocks
