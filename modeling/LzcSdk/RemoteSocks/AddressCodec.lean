import LzcSdk.RemoteSocks.Address

/-!
# The address decoder on the wire forms

`decodePrefix` on each wire form followed by any bytes (`decodePrefix_ipv4Wire`, `decodePrefix_ipv6Wire`,
`decodePrefix_domainWire`), and back: whatever it accepts starts with a wire form (`decodePrefix_eq_ok`). What it
makes of a name is `decodeName_eq_ok`. No slice or index is out of range on any input (`decodePrefix_ne_panicked`).
-/

namespace LzcSdk.RemoteSocks

open Outcome

section Decode

variable (b64 : Base64.Engine)

/-! ## Names -/

/-- What the decoder makes of a name: a custom name with port `0` is a custom address, another name ending in the
custom suffix with port `0` is refused, and every other host name is a domain address. -/
theorem decodeName_eq_ok {host : String} {port : UInt16} {a : SocksAddress} :
    decodeName b64 host port = ok a ↔
      (port = 0 ∧ ∃ network address, host = encodeCustomDomain b64 network address ∧ network ≠ "" ∧
        IsWireString host ∧ a = .Custom network address) ∨
      (¬ (port = 0 ∧ Text.endsWith host CUSTOM_SUFFIX = true) ∧ IsHostName host ∧ a = .Domain host port) := by
  unfold decodeName
  by_cases hc : port = 0 ∧ Text.endsWith host CUSTOM_SUFFIX = true
  · rw [if_pos hc, bind_eq_ok]
    constructor
    · rintro ⟨⟨network, address⟩, hd, ha⟩
      obtain ⟨hhost, hn⟩ := (decodeCustomDomain_eq_ok b64).1 hd
      obtain ⟨-, hw, rfl⟩ := (custom_eq_ok b64).1 ha
      exact Or.inl ⟨hc.1, network, address, hhost, hn, hhost ▸ hw, rfl⟩
    · rintro (⟨-, network, address, hhost, hn, hw, rfl⟩ | ⟨hnc, -⟩)
      · exact ⟨(network, address), (decodeCustomDomain_eq_ok b64).2 ⟨hhost, hn⟩,
          (custom_eq_ok b64).2 ⟨hn, hhost ▸ hw, rfl⟩⟩
      · exact absurd hc hnc
  · rw [if_neg hc, domain_eq_ok]
    constructor
    · exact fun h => Or.inr ⟨hc, h⟩
    · rintro (⟨hp, network, address, rfl, -⟩ | ⟨-, h⟩)
      · exact absurd ⟨hp, endsWith_encodeCustomDomain b64 network address⟩ hc
      · exact h

theorem decodeCustomDomain_ne_panicked (host : String) : decodeCustomDomain b64 host ≠ panicked := by
  unfold decodeCustomDomain
  intro h
  rcases bind_eq_panicked.1 h with h | ⟨_, -, h⟩
  · exact okOr_ne_panicked _ _ h
  split at h
  · split_ifs at h
    iterate 4
      rcases bind_eq_panicked.1 h with h | ⟨_, -, h⟩
      · exact okOr_ne_panicked _ _ h
    cases h
  · cases h

theorem decodeName_ne_panicked (host : String) (port : UInt16) : decodeName b64 host port ≠ panicked := by
  unfold decodeName
  split_ifs
  · intro h
    rcases bind_eq_panicked.1 h with h | ⟨_, -, h⟩
    · exact decodeCustomDomain_ne_panicked b64 host h
    · exact custom_ne_panicked b64 _ _ h
  · exact domain_ne_panicked host port

/-! ## The length-prefixed name -/

/-- A name of the announced length is read whole, and then decoded. -/
theorem decodeDomain_cons {length : UInt8} {hb : List UInt8} (hi lo : UInt8) (hl : hb.length = length.toNat)
    (h0 : length.toNat ≠ 0) : decodeDomain b64 (length :: (hb ++ [hi, lo])) = (do
      let host ← okOr .invalidSocksAddress (Text.fromUtf8? hb)
      decodeName b64 host (Bytes.ofBeBytes hi lo)) := by
  have hcond : ¬ (length.toNat = 0 ∨ (hb ++ [hi, lo]).length ≠ length.toNat + 2) := by
    simp only [List.length_append, List.length_cons, List.length_nil]
    omega
  simp only [decodeDomain]
  rw [if_neg hcond, sliceTo_append hl, index_append (i := 0) (by omega), index_append (i := 1) (by omega)]
  simp

/-- Anything else is refused. -/
theorem decodeDomain_of_length {length : UInt8} {remainder : List UInt8}
    (h : length.toNat = 0 ∨ remainder.length ≠ length.toNat + 2) :
    decodeDomain b64 (length :: remainder) = err .invalidSocksAddress := by
  simp only [decodeDomain, if_pos h]

/-- A byte string of the announced length is a name and two port bytes. -/
theorem exists_name_port {n : Nat} {xs : List UInt8} (h : xs.length = n + 2) :
    ∃ hb hi lo, xs = hb ++ [hi, lo] ∧ hb.length = n := by
  have hd : (xs.drop n).length = 2 := by simp [h]
  match hxs : xs.drop n, hd with
  | [hi, lo], _ => exact ⟨xs.take n, hi, lo, by rw [← hxs, List.take_append_drop], by simp [h]⟩

theorem decodeDomain_ne_panicked (remainder : List UInt8) : decodeDomain b64 remainder ≠ panicked := by
  cases remainder with
  | nil => simp [decodeDomain]
  | cons length remainder =>
    by_cases h : length.toNat = 0 ∨ remainder.length ≠ length.toNat + 2
    · rw [decodeDomain_of_length b64 h]
      simp
    · simp only [not_or, ne_eq, not_not] at h
      obtain ⟨hb, hi, lo, rfl, hl⟩ := exists_name_port h.2
      rw [decodeDomain_cons b64 hi lo hl h.1]
      intro hp
      rcases bind_eq_panicked.1 hp with hp | ⟨_, -, hp⟩
      · exact okOr_ne_panicked _ _ hp
      · exact decodeName_ne_panicked b64 _ _ hp

/-! ## The address at the front of a byte string -/

theorem decodePrefix_ipv4Wire (ip : Ipv4Addr) (port : UInt16) (t : List UInt8) :
    SocksAddress.decodePrefix b64 (ipv4Wire ip port ++ t) = ok (.Ip (.v4 ip port), 7) := by
  obtain ⟨⟨⟨xs⟩, hxs⟩⟩ := ip
  match xs, hxs with
  | [a, b, c, d], _ =>
    simp [ipv4Wire, SocksAddress.decodePrefix, Bytes.beBytes, Bytes.ofBeBytes_beBytes, SocketAddr.new, Ipv4Addr.new,
      Vector.toList]

theorem decodePrefix_ipv6Wire (ip : Ipv6Addr) (port : UInt16) (t : List UInt8) :
    SocksAddress.decodePrefix b64 (ipv6Wire ip port ++ t) = ok (.Ip (.v6 ip port 0 0), 19) := by
  obtain ⟨v⟩ := ip
  have hlen : v.toList.length = 16 := by simp
  have hge : ¬ (v.toList ++ (Bytes.beBytes port ++ t)).length < 18 := by
    simp only [List.length_append, hlen, Bytes.length_beBytes]
    omega
  simp only [ipv6Wire, SocksAddress.decodePrefix, List.cons_append, List.append_assoc]
  rw [if_neg (by decide), if_pos trivial, if_neg hge, sliceTo_append hlen,
    index_append (n := 16) (i := 0) hlen, index_append (n := 17) (i := 1) (by omega)]
  simp [Bytes.vector?_toList, Bytes.beBytes, Bytes.ofBeBytes_beBytes, SocketAddr.new]

/-- The decoder takes exactly the announced name off the front. -/
theorem decodePrefix_domain {length : UInt8} {hb : List UInt8} (hi lo : UInt8) (hl : hb.length = length.toNat)
    (t : List UInt8) : SocksAddress.decodePrefix b64 (DOMAIN_ADDRESS :: length :: (hb ++ [hi, lo]) ++ t) =
      (do
        let address ← decodeDomain b64 (length :: (hb ++ [hi, lo]))
        return (address, length.toNat + 4)) := by
  have hge : ¬ (DOMAIN_ADDRESS :: length :: (hb ++ [hi, lo] ++ t)).length < length.toNat + 4 := by
    simp only [List.length_cons, List.length_append, List.length_nil]
    omega
  have hs : (sliceTo (length :: (hb ++ [hi, lo] ++ t)) (length.toNat + 4 - 1) : Outcome Error (List UInt8)) =
      ok (length :: (hb ++ [hi, lo])) :=
    @sliceTo_append _ _ (length :: (hb ++ [hi, lo])) _ (by simp [hl]) t
  simp only [SocksAddress.decodePrefix, List.cons_append]
  rw [if_neg (by decide), if_neg (by decide), if_pos trivial, if_neg hge, hs, ok_bind]

theorem decodePrefix_domainWire {host : String} (hw : IsWireString host) (port : UInt16) (t : List UInt8) :
    SocksAddress.decodePrefix b64 (domainWire host port ++ t) =
      (do
        let address ← decodeName b64 host port
        return (address, Text.len host + 4)) := by
  have hl : (Text.bytes host).length = (UInt8.ofNat (Text.len host)).toNat := hw.toNat_len.symm
  have h0 : (UInt8.ofNat (Text.len host)).toNat ≠ 0 := by rw [hw.toNat_len]; exact Nat.pos_iff_ne_zero.1 hw.len_pos
  have h := decodePrefix_domain b64 (UInt8.ofNat (port.toNat / 256)) (UInt8.ofNat (port.toNat % 256)) hl t
  rw [decodeDomain_cons b64 _ _ hl h0, Text.fromUtf8?_bytes, okOr_some, ok_bind, Bytes.ofBeBytes_beBytes,
    hw.toNat_len] at h
  exact h

/-! ## What can stand at the front of a byte string -/

end Decode

/-- A byte string that ends inside the address field at its front. -/
def IsCut : List UInt8 → Prop
  | [] => True
  | addressType :: r =>
    (addressType = IPV4_ADDRESS ∧ r.length < 6) ∨ (addressType = IPV6_ADDRESS ∧ r.length < 18) ∨
      (addressType = DOMAIN_ADDRESS ∧ ∀ length r', r = length :: r' → r'.length < UInt8.toNat length + 2)

/-- The front of a byte string, read as an address field: cut short, of an unsupported type, or complete. -/
inductive AddressField : List UInt8 → Prop where
  | cut {b : List UInt8} (h : IsCut b) : AddressField b
  | unsupported {addressType : UInt8} (r : List UInt8) (h4 : addressType ≠ IPV4_ADDRESS)
      (h6 : addressType ≠ IPV6_ADDRESS) (h3 : addressType ≠ DOMAIN_ADDRESS) : AddressField (addressType :: r)
  | ipv4 (ip : Ipv4Addr) (port : UInt16) (t : List UInt8) : AddressField (ipv4Wire ip port ++ t)
  | ipv6 (ip : Ipv6Addr) (port : UInt16) (t : List UInt8) : AddressField (ipv6Wire ip port ++ t)
  | domain {length : UInt8} {hb : List UInt8} (hi lo : UInt8) (hl : hb.length = length.toNat) (t : List UInt8) :
      AddressField (DOMAIN_ADDRESS :: length :: (hb ++ [hi, lo]) ++ t)

/-- At least `n + 2` bytes are `n` bytes, two port bytes and a rest. -/
theorem exists_vector_port {n : Nat} {r : List UInt8} (h : ¬ r.length < n + 2) :
    ∃ (v : Vector UInt8 n) (port : UInt16) (t : List UInt8), r = v.toList ++ Bytes.beBytes port ++ t := by
  obtain ⟨v, ys, rfl⟩ := Bytes.exists_vector_append (show n ≤ r.length by omega)
  match ys, h with
  | hi :: lo :: t, _ => exact ⟨v, Bytes.ofBeBytes hi lo, t, by simp [Bytes.beBytes_ofBeBytes]⟩
  | [], h => simp at h
  | [_], h => simp at h

/-- Every byte string starts in one of these ways. -/
theorem addressField (b : List UInt8) : AddressField b := by
  cases b with
  | nil => exact .cut trivial
  | cons addressType r =>
    by_cases h4 : addressType = IPV4_ADDRESS
    · by_cases hlen : r.length < 6
      · exact .cut (Or.inl ⟨h4, hlen⟩)
      · obtain ⟨v, port, t, rfl⟩ := exists_vector_port (n := 4) hlen
        exact h4 ▸ .ipv4 ⟨v⟩ port t
    by_cases h6 : addressType = IPV6_ADDRESS
    · by_cases hlen : r.length < 18
      · exact .cut (Or.inr (Or.inl ⟨h6, hlen⟩))
      · obtain ⟨v, port, t, rfl⟩ := exists_vector_port (n := 16) hlen
        exact h6 ▸ .ipv6 ⟨v⟩ port t
    by_cases h3 : addressType = DOMAIN_ADDRESS
    · by_cases hlen : ∀ length r', r = length :: r' → r'.length < UInt8.toNat length + 2
      · exact .cut (Or.inr (Or.inr ⟨h3, hlen⟩))
      · simp only [not_forall] at hlen
        obtain ⟨length, r', rfl, hlen⟩ := hlen
        obtain ⟨hb, hi, lo, htake, hl⟩ := exists_name_port
          (show (r'.take (length.toNat + 2)).length = length.toNat + 2 by simp; omega)
        rw [← List.take_append_drop (length.toNat + 2) r', htake]
        exact h3 ▸ .domain hi lo hl _
    · exact .unsupported r h4 h6 h3

section Decode

variable (b64 : Base64.Engine)

/-- A field cut short is refused. -/
theorem decodePrefix_cut {b : List UInt8} (h : IsCut b) :
    SocksAddress.decodePrefix b64 b = err .invalidSocksAddress := by
  cases b with
  | nil => rfl
  | cons addressType r =>
    rcases h with ⟨rfl, h⟩ | ⟨rfl, h⟩ | ⟨rfl, h⟩
    · simp only [SocksAddress.decodePrefix]
      rw [if_pos trivial, if_pos h]
    · simp only [SocksAddress.decodePrefix]
      rw [if_neg (by decide), if_pos trivial, if_pos h]
    · cases r with
      | nil => rfl
      | cons length r =>
        have hlen := h length r rfl
        simp only [SocksAddress.decodePrefix]
        rw [if_neg (by decide), if_neg (by decide), if_pos trivial, if_pos (by simp only [List.length_cons]; omega)]

theorem decodePrefix_unsupported {addressType : UInt8} (r : List UInt8) (h4 : addressType ≠ IPV4_ADDRESS)
    (h6 : addressType ≠ IPV6_ADDRESS) (h3 : addressType ≠ DOMAIN_ADDRESS) :
    SocksAddress.decodePrefix b64 (addressType :: r) = err (.unsupportedSocksAddressType addressType) := by
  simp only [SocksAddress.decodePrefix]
  rw [if_neg h4, if_neg h6, if_neg h3]

/-- **What the decoder accepts starts with a wire form.** -/
theorem decodePrefix_eq_ok {b : List UInt8} {a : SocksAddress} {n : Nat}
    (h : SocksAddress.decodePrefix b64 b = ok (a, n)) :
    (∃ ip port t, b = ipv4Wire ip port ++ t ∧ a = .Ip (.v4 ip port) ∧ n = 7) ∨
    (∃ ip port t, b = ipv6Wire ip port ++ t ∧ a = .Ip (.v6 ip port 0 0) ∧ n = 19) ∨
    (∃ host port t, b = domainWire host port ++ t ∧ IsWireString host ∧ decodeName b64 host port = ok a ∧
      n = Text.len host + 4) := by
  cases addressField b with
  | cut hc => rw [decodePrefix_cut b64 hc] at h; cases h
  | unsupported r h4 h6 h3 => rw [decodePrefix_unsupported b64 r h4 h6 h3] at h; cases h
  | ipv4 ip port t =>
    rw [decodePrefix_ipv4Wire] at h
    cases h
    exact Or.inl ⟨ip, port, t, rfl, rfl, rfl⟩
  | ipv6 ip port t =>
    rw [decodePrefix_ipv6Wire] at h
    cases h
    exact Or.inr (Or.inl ⟨ip, port, t, rfl, rfl, rfl⟩)
  | @domain length hb hi lo hl t =>
    rw [decodePrefix_domain b64 hi lo hl, bind_eq_ok] at h
    obtain ⟨a', hd, hn⟩ := h
    cases hn
    by_cases h0 : length.toNat = 0
    · rw [decodeDomain_of_length b64 (Or.inl h0)] at hd
      cases hd
    · rw [decodeDomain_cons b64 hi lo hl h0, bind_eq_ok] at hd
      obtain ⟨host, hhost, hd⟩ := hd
      have hbytes : Text.bytes host = hb := Text.bytes_of_fromUtf8? (okOr_eq_ok.1 hhost)
      have hlen : Text.len host = length.toNat := by rw [Text.len, hbytes, hl]
      have hw : IsWireString host :=
        ⟨fun he => h0 (by rw [← hlen, Text.len_eq_zero.2 he]), by have := length.toNat_lt; omega⟩
      refine Or.inr (Or.inr ⟨host, Bytes.ofBeBytes hi lo, t, ?_, hw, hd, by rw [hlen]⟩)
      rw [domainWire, hlen, UInt8.ofNat_toNat, hbytes, Bytes.beBytes_ofBeBytes]

/-- No slice or index of the decoder is out of range. -/
theorem decodePrefix_ne_panicked (b : List UInt8) : SocksAddress.decodePrefix b64 b ≠ panicked := by
  cases addressField b with
  | cut hc => rw [decodePrefix_cut b64 hc]; simp
  | unsupported r h4 h6 h3 => rw [decodePrefix_unsupported b64 r h4 h6 h3]; simp
  | ipv4 ip port t => rw [decodePrefix_ipv4Wire]; simp
  | ipv6 ip port t => rw [decodePrefix_ipv6Wire]; simp
  | domain hi lo hl t =>
    rw [decodePrefix_domain b64 hi lo hl]
    intro h
    rcases bind_eq_panicked.1 h with h | ⟨_, -, h⟩
    · exact decodeDomain_ne_panicked b64 _ h
    · cases h

end Decode

end LzcSdk.RemoteSocks
