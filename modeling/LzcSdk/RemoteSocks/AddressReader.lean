import LzcSdk.RemoteSocks.AddressLaws

/-!
# Reading an address off a stream

`readFrom` reads the type byte, then as many bytes as the type (and, for a name, its length byte) announces, and
decodes what it read. On the bytes of a connection it returns an address exactly when one stands at their front, and
takes exactly that address (`eval_readFrom_ok`, `eval_readFrom_eq_ok`); it writes nothing and never panics.

`decodePrefix` has the layout of an address once more. **The two readers agree** (`readers_agree`), on the address and
on its length, and on the error of a complete field.
-/

namespace LzcSdk.RemoteSocks

open Outcome ByteIo

/-- The bytes of the address field at the front of the stream. -/
def readEncoded : Prog Error (List UInt8) := do
  let addressType ← Prog.readU8
  if addressType = IPV4_ADDRESS then
    let remainder ← Prog.readExact 6
    return [addressType] ++ remainder.toList
  else if addressType = IPV6_ADDRESS then
    let remainder ← Prog.readExact 18
    return [addressType] ++ remainder.toList
  else if addressType = DOMAIN_ADDRESS then
    let length ← Prog.readU8
    let remainder ← Prog.readExact (length.toNat + 2)
    return [addressType] ++ [length] ++ remainder.toList
  else
    Prog.throw (.unsupportedSocksAddressType addressType)

/-- Read one address off the stream. -/
def SocksAddress.readFrom (b64 : Base64.Engine) : Prog Error SocksAddress := do
  let encoded ← readEncoded
  .ret (SocksAddress.decode b64 encoded)

/-- Write the encoding of this address. -/
def SocksAddress.writeTo (b64 : Base64.Engine) (address : SocksAddress) : Prog Error Unit := do
  let encoded ← .ret (SocksAddress.encode b64 address)
  Prog.writeAll encoded

/-! ## The address field -/

section Field

variable {e : Ending} {k : Sink}

/-- Return the bytes of a field after those already read. -/
def fieldTail {n : Nat} (head : List UInt8) (v : Vector UInt8 n) : Prog Error (List UInt8) :=
  .ret (ok (head ++ v.toList))

theorem eval_fieldTail {n : Nat} {bs : List UInt8} (hn : bs.length = n) (head rest : List UInt8) :
    (Prog.read n (fieldTail head)).eval ⟨bs ++ rest, e, k⟩ = (ok (head ++ bs), ⟨rest, e, k⟩) := by
  obtain ⟨v, rfl, he⟩ := Prog.eval_read_list (fieldTail head) hn rest
  exact he

/-- The branch of `readEncoded` that the type byte selects. -/
theorem eval_readEncoded_cons (addressType : UInt8) (r : List UInt8) :
    readEncoded.eval ⟨addressType :: r, e, k⟩ =
      Prog.eval
        (if addressType = IPV4_ADDRESS then Prog.read 6 (fieldTail [addressType])
        else if addressType = IPV6_ADDRESS then Prog.read 18 (fieldTail [addressType])
        else if addressType = DOMAIN_ADDRESS then
          Prog.readU8 >>= fun length => Prog.read (length.toNat + 2) (fieldTail [addressType, length])
        else Prog.throw (.unsupportedSocksAddressType addressType)) ⟨r, e, k⟩ :=
  Prog.eval_read_one addressType r

theorem eval_readEncoded_ipv4 (ip : Ipv4Addr) (port : UInt16) (t : List UInt8) :
    readEncoded.eval ⟨ipv4Wire ip port ++ t, e, k⟩ = (ok (ipv4Wire ip port), ⟨t, e, k⟩) := by
  rw [ipv4Wire, List.cons_append, eval_readEncoded_cons, if_pos rfl]
  exact eval_fieldTail (by simp) [IPV4_ADDRESS] t

theorem eval_readEncoded_ipv6 (ip : Ipv6Addr) (port : UInt16) (t : List UInt8) :
    readEncoded.eval ⟨ipv6Wire ip port ++ t, e, k⟩ = (ok (ipv6Wire ip port), ⟨t, e, k⟩) := by
  rw [ipv6Wire, List.cons_append, eval_readEncoded_cons, if_neg (by decide), if_pos rfl]
  exact eval_fieldTail (by simp) [IPV6_ADDRESS] t

theorem eval_readEncoded_domain {length : UInt8} {hb : List UInt8} (hi lo : UInt8) (hl : hb.length = length.toNat)
    (t : List UInt8) : readEncoded.eval ⟨DOMAIN_ADDRESS :: length :: (hb ++ [hi, lo]) ++ t, e, k⟩ =
      (ok (DOMAIN_ADDRESS :: length :: (hb ++ [hi, lo])), ⟨t, e, k⟩) := by
  rw [List.cons_append, List.cons_append, eval_readEncoded_cons, if_neg (by decide), if_neg (by decide), if_pos rfl,
    Prog.readU8_bind, Prog.eval_read_one]
  exact eval_fieldTail (by simp [hl]) [DOMAIN_ADDRESS, length] t

theorem eval_readEncoded_domainWire {host : String} (hw : IsWireString host) (port : UInt16) (t : List UInt8) :
    readEncoded.eval ⟨domainWire host port ++ t, e, k⟩ = (ok (domainWire host port), ⟨t, e, k⟩) :=
  eval_readEncoded_domain _ _ (hw.toNat_len.symm : (Text.bytes host).length = _) t

theorem eval_readEncoded_unsupported {addressType : UInt8} (r : List UInt8) (h4 : addressType ≠ IPV4_ADDRESS)
    (h6 : addressType ≠ IPV6_ADDRESS) (h3 : addressType ≠ DOMAIN_ADDRESS) :
    readEncoded.eval ⟨addressType :: r, e, k⟩ = (err (.unsupportedSocksAddressType addressType), ⟨r, e, k⟩) := by
  rw [eval_readEncoded_cons, if_neg h4, if_neg h6, if_neg h3]
  rfl

/-- A stream that ends inside the field is read to its end. -/
theorem eval_readEncoded_cut {b : List UInt8} (h : IsCut b) :
    readEncoded.eval ⟨b, e, k⟩ = (err (fromIo e.error), ⟨[], e, k⟩) := by
  cases b with
  | nil => rfl
  | cons addressType r =>
    rw [eval_readEncoded_cons]
    rcases h with ⟨rfl, h⟩ | ⟨rfl, h⟩ | ⟨rfl, h⟩
    · rw [if_pos rfl]
      exact Prog.eval_read_short h
    · rw [if_neg (by decide), if_pos rfl]
      exact Prog.eval_read_short h
    · rw [if_neg (by decide), if_neg (by decide), if_pos rfl]
      cases r with
      | nil => rfl
      | cons length r =>
        rw [Prog.readU8_bind, Prog.eval_read_one]
        exact Prog.eval_read_short (h length r rfl)

end Field

/-! ## The address -/

section Read

variable (b64 : Base64.Engine) {e : Ending} {k : Sink}

/-- The reader decodes the field it read. -/
theorem eval_readFrom (w : Wire) : (SocksAddress.readFrom b64).eval w =
    match readEncoded.eval w with
    | (ok encoded, w') => (SocksAddress.decode b64 encoded, w')
    | (err error, w') => (err error, w')
    | (panicked, w') => (panicked, w') := by
  rw [SocksAddress.readFrom, Prog.eval_bind]
  rcases readEncoded.eval w with ⟨_ | _ | _, _⟩ <;> rfl

/-- The reader takes an address at the front of the stream, and nothing else. -/
theorem eval_readFrom_ok {wire : List UInt8} {a : SocksAddress} (h : SocksAddress.decode b64 wire = ok a)
    (t : List UInt8) : (SocksAddress.readFrom b64).eval ⟨wire ++ t, e, k⟩ = (ok a, ⟨t, e, k⟩) := by
  rw [eval_readFrom]
  rcases wire_of_decode b64 h with ⟨ip, port, rfl⟩ | ⟨ip, port, rfl⟩ | ⟨host, port, rfl, hw⟩
  · rw [eval_readEncoded_ipv4]
    exact congrArg (·, _) h
  · rw [eval_readEncoded_ipv6]
    exact congrArg (·, _) h
  · rw [eval_readEncoded_domainWire hw]
    exact congrArg (·, _) h

/-- **An address that is read stood at the front of the stream.** -/
theorem eval_readFrom_eq_ok {b : List UInt8} {a : SocksAddress} {w : Wire}
    (h : (SocksAddress.readFrom b64).eval ⟨b, e, k⟩ = (ok a, w)) :
    ∃ wire t, b = wire ++ t ∧ SocksAddress.decode b64 wire = ok a := by
  rw [eval_readFrom] at h
  cases addressField b with
  | cut hc => rw [eval_readEncoded_cut hc] at h; cases h
  | unsupported r h4 h6 h3 => rw [eval_readEncoded_unsupported r h4 h6 h3] at h; cases h
  | ipv4 ip port t =>
    rw [eval_readEncoded_ipv4] at h
    exact ⟨_, t, rfl, congrArg Prod.fst h⟩
  | ipv6 ip port t =>
    rw [eval_readEncoded_ipv6] at h
    exact ⟨_, t, rfl, congrArg Prod.fst h⟩
  | domain hi lo hl t =>
    rw [eval_readEncoded_domain hi lo hl] at h
    exact ⟨_, t, rfl, congrArg Prod.fst h⟩

theorem eval_readFrom_ne_panicked (b : List UInt8) :
    ((SocksAddress.readFrom b64).eval ⟨b, e, k⟩).1 ≠ panicked := by
  rw [eval_readFrom]
  cases addressField b with
  | cut hc => rw [eval_readEncoded_cut hc]; simp
  | unsupported r h4 h6 h3 => rw [eval_readEncoded_unsupported r h4 h6 h3]; simp
  | ipv4 ip port t => rw [eval_readEncoded_ipv4]; exact decode_ne_panicked b64 _
  | ipv6 ip port t => rw [eval_readEncoded_ipv6]; exact decode_ne_panicked b64 _
  | domain hi lo hl t => rw [eval_readEncoded_domain hi lo hl]; exact decode_ne_panicked b64 _

/-- The reader writes nothing. -/
theorem eval_readFrom_sink (b : List UInt8) : ((SocksAddress.readFrom b64).eval ⟨b, e, k⟩).2.sink = k := by
  rw [eval_readFrom]
  cases addressField b with
  | cut hc => rw [eval_readEncoded_cut hc]
  | unsupported r h4 h6 h3 => rw [eval_readEncoded_unsupported r h4 h6 h3]
  | ipv4 ip port t => rw [eval_readEncoded_ipv4]
  | ipv6 ip port t => rw [eval_readEncoded_ipv6]
  | domain hi lo hl t => rw [eval_readEncoded_domain hi lo hl]

end Read

/-! ## The two readers -/

/-- The length of the address field at the front of a byte string, as far as its first two bytes announce it. -/
def fieldLength : List UInt8 → Nat
  | [] => 1
  | addressType :: r =>
    if addressType = IPV4_ADDRESS then 7
    else if addressType = IPV6_ADDRESS then 19
    else if addressType = DOMAIN_ADDRESS then
      match r with
      | [] => 2
      | length :: _ => length.toNat + 4
    else 1

/-- A byte string is cut short when it is shorter than its field. -/
theorem isCut_iff {b : List UInt8} : IsCut b ↔ b.length < fieldLength b := by
  cases b with
  | nil => exact ⟨fun _ => Nat.zero_lt_one, fun _ => trivial⟩
  | cons addressType r =>
    constructor
    · rintro (⟨rfl, h⟩ | ⟨rfl, h⟩ | ⟨rfl, h⟩)
      · exact Nat.succ_lt_succ h
      · exact Nat.succ_lt_succ h
      · cases r with
        | nil => exact Nat.one_lt_two
        | cons length r => exact Nat.succ_lt_succ (Nat.succ_lt_succ (h length r rfl))
    · intro h
      simp only [fieldLength] at h
      split_ifs at h with h4 h6 h3
      · exact .inl ⟨h4, Nat.lt_of_succ_lt_succ h⟩
      · exact .inr (.inl ⟨h6, Nat.lt_of_succ_lt_succ h⟩)
      · refine .inr (.inr ⟨h3, ?_⟩)
        rintro length r rfl
        exact Nat.lt_of_succ_lt_succ (Nat.lt_of_succ_lt_succ h)
      · rw [List.length_cons] at h
        omega

/-- A complete field: the reader takes exactly its bytes, and decoding them gives what the decoder makes of the whole
byte string. -/
structure Complete (b64 : Base64.Engine) (field t : List UInt8) : Prop where
  length : fieldLength (field ++ t) = field.length
  alone : fieldLength field = field.length
  read : ∀ (e : Ending) (k : Sink), readEncoded.eval ⟨field ++ t, e, k⟩ = (ok field, ⟨t, e, k⟩)
  decode : ∀ r, SocksAddress.decodePrefix b64 (field ++ t) = r ↔ SocksAddress.decodePrefix b64 field = r
  exact : ∀ a n, SocksAddress.decodePrefix b64 field = ok (a, n) → n = field.length

section Agree

variable (b64 : Base64.Engine)

theorem complete_ipv4 (ip : Ipv4Addr) (port : UInt16) (t : List UInt8) : Complete b64 (ipv4Wire ip port) t := by
  have hd := decodePrefix_ipv4Wire b64 ip port
  have halone := hd []
  rw [List.append_nil] at halone
  refine ⟨?_, ?_, fun e k => eval_readEncoded_ipv4 ip port t, fun r => by rw [hd, halone], ?_⟩
  · rw [length_ipv4Wire]
    rfl
  · rw [length_ipv4Wire]
    rfl
  · intro a n h
    rw [halone] at h
    cases h
    rw [length_ipv4Wire]

theorem complete_ipv6 (ip : Ipv6Addr) (port : UInt16) (t : List UInt8) : Complete b64 (ipv6Wire ip port) t := by
  have hd := decodePrefix_ipv6Wire b64 ip port
  have halone := hd []
  rw [List.append_nil] at halone
  refine ⟨?_, ?_, fun e k => eval_readEncoded_ipv6 ip port t, fun r => by rw [hd, halone], ?_⟩
  · rw [length_ipv6Wire]
    rfl
  · rw [length_ipv6Wire]
    rfl
  · intro a n h
    rw [halone] at h
    cases h
    rw [length_ipv6Wire]

theorem complete_domain {length : UInt8} {hb : List UInt8} (hi lo : UInt8) (hl : hb.length = length.toNat)
    (t : List UInt8) : Complete b64 (DOMAIN_ADDRESS :: length :: (hb ++ [hi, lo])) t := by
  have hd := decodePrefix_domain b64 hi lo hl
  have halone := hd []
  rw [List.append_nil] at halone
  have hlen : (DOMAIN_ADDRESS :: length :: (hb ++ [hi, lo])).length = length.toNat + 4 := by
    simp [hl]
  refine ⟨?_, ?_, fun e k => eval_readEncoded_domain hi lo hl t, fun r => by rw [hd, halone], ?_⟩
  · rw [hlen]
    rfl
  · rw [hlen]
    rfl
  · intro a n h
    rw [halone] at h
    obtain ⟨_, -, hn⟩ := bind_eq_ok.1 h
    cases hn
    rw [hlen]

/-- A byte string is cut short, of an unsupported type, or begins with a complete field. -/
theorem cut_or_complete (b : List UInt8) : IsCut b ∨
    (∃ addressType r, b = addressType :: r ∧ fieldLength b = 1 ∧
      (∀ (e : Ending) (k : Sink), readEncoded.eval ⟨b, e, k⟩ =
        (err (.unsupportedSocksAddressType addressType), ⟨r, e, k⟩)) ∧
      SocksAddress.decodePrefix b64 b = err (.unsupportedSocksAddressType addressType)) ∨
    ∃ field t, b = field ++ t ∧ Complete b64 field t := by
  cases addressField b with
  | cut h => exact .inl h
  | unsupported r h4 h6 h3 =>
    refine .inr (.inl ⟨_, r, rfl, ?_, fun e k => eval_readEncoded_unsupported r h4 h6 h3,
      decodePrefix_unsupported b64 r h4 h6 h3⟩)
    simp [fieldLength, h4, h6, h3]
  | ipv4 ip port t => exact .inr (.inr ⟨_, t, rfl, complete_ipv4 b64 ip port t⟩)
  | ipv6 ip port t => exact .inr (.inr ⟨_, t, rfl, complete_ipv6 b64 ip port t⟩)
  | domain hi lo hl t => exact .inr (.inr ⟨_, t, rfl, complete_domain b64 hi lo hl t⟩)

variable {b64} in
/-- The reader decodes exactly the field. -/
theorem Complete.eval_readFrom {field t : List UInt8} (h : Complete b64 field t) (e : Ending) (k : Sink) :
    (SocksAddress.readFrom b64).eval ⟨field ++ t, e, k⟩ = (SocksAddress.decode b64 field, ⟨t, e, k⟩) := by
  rw [LzcSdk.RemoteSocks.eval_readFrom, h.read]

variable {b64} in
/-- Decoding a field fails where the decoder does, never for its length. -/
theorem Complete.decode_eq_err {field t : List UInt8} (h : Complete b64 field t) {error : Error} :
    SocksAddress.decode b64 field = err error ↔ SocksAddress.decodePrefix b64 (field ++ t) = err error := by
  rw [h.decode, SocksAddress.decode]
  match hp : SocksAddress.decodePrefix b64 field with
  | ok (a, n) =>
    rw [ok_bind]
    simp [h.exact a n hp]
  | err error' => simp
  | panicked => simp

variable {b64} in
/-- Decoding a field and taking it from the stream is what the decoder does on the stream. -/
theorem Complete.decoded_iff {field t : List UInt8} (h : Complete b64 field t) {e : Ending} {k : Sink}
    {a : SocksAddress}
    {n : Nat} : (SocksAddress.decode b64 field = ok a ∧ n ≤ (field ++ t).length ∧
      (⟨t, e, k⟩ : Wire) = ⟨(field ++ t).drop n, e, k⟩) ↔ SocksAddress.decodePrefix b64 (field ++ t) = ok (a, n) := by
  rw [h.decode, decode_eq_ok]
  constructor
  · rintro ⟨hd, hn, hrest⟩
    have htail : t = (field ++ t).drop n := congrArg Wire.input hrest
    have hlt : t.length = (field ++ t).length - n := by
      conv_lhs => rw [htail]
      exact List.length_drop
    rw [List.length_append] at hn hlt
    rw [hd, show n = field.length by omega]
  · intro hd
    have hn := h.exact a n hd
    subst hn
    exact ⟨hd, by simp, by rw [List.drop_left' rfl]⟩

/-- **The two readers agree.** On every stream, cut into segments in any way: the reader returns an address and takes
`n` bytes exactly when the decoder finds this address in the first `n` bytes; on a complete field both fail with the
same error; on a field cut short both fail; the reader takes no byte behind the field that the first bytes announce;
and what it hands to `decode` has exactly the length that is decoded. -/
theorem readers_agree (s : Socket) :
    let bytes := s.segments.flatten
    let out := (SocksAddress.readFrom b64).run s
    (∀ a n, (out.1 = ok a ∧ n ≤ bytes.length ∧ out.2.flat = ⟨bytes.drop n, s.ending, s.sink⟩) ↔
      SocksAddress.decodePrefix b64 bytes = ok (a, n)) ∧
    (fieldLength bytes ≤ bytes.length → ∀ error, out.1 = err error ↔ SocksAddress.decodePrefix b64 bytes = err error) ∧
    (bytes.length < fieldLength bytes →
      (∃ error, out.1 = err error) ∧ ∃ error, SocksAddress.decodePrefix b64 bytes = err error) ∧
    (∃ n, n ≤ fieldLength bytes ∧ out.2.flat = ⟨bytes.drop n, s.ending, s.sink⟩) ∧
    ∀ encoded w, readEncoded.eval s.flat = (ok encoded, w) →
      encoded.length = fieldLength bytes ∧ fieldLength encoded = encoded.length ∧
      ∀ a n, SocksAddress.decodePrefix b64 encoded = ok (a, n) → n = encoded.length := by
  intro bytes out
  have hfst : out.1 = ((SocksAddress.readFrom b64).eval ⟨bytes, s.ending, s.sink⟩).1 := Prog.run_fst _ s
  have hsnd : out.2.flat = ((SocksAddress.readFrom b64).eval ⟨bytes, s.ending, s.sink⟩).2 := Prog.run_snd _ s
  have hflat : s.flat = ⟨bytes, s.ending, s.sink⟩ := rfl
  rw [hfst, hsnd, hflat]
  clear hfst hsnd hflat out
  generalize bytes = b, s.ending = e, s.sink = k
  rcases cut_or_complete b64 b with hcut | ⟨addressType, r, rfl, hlen, hread, hdec⟩ | ⟨field, t, rfl, hc⟩
  · -- both fail before the end of the field
    have hread := eval_readEncoded_cut (e := e) (k := k) hcut
    have hdec := decodePrefix_cut b64 hcut
    have hlt := isCut_iff.1 hcut
    have hfrom : (SocksAddress.readFrom b64).eval ⟨b, e, k⟩ = (err (fromIo e.error), ⟨[], e, k⟩) := by
      rw [eval_readFrom, hread]
    rw [hfrom, hread, hdec]
    refine ⟨fun a n => by simp, fun hle => absurd hlt (Nat.not_lt.2 hle), fun _ => ⟨⟨_, rfl⟩, _, rfl⟩,
      ⟨b.length, Nat.le_of_lt hlt, by rw [List.drop_length]⟩, ?_⟩
    rintro encoded w ⟨⟩
  · have hfrom : (SocksAddress.readFrom b64).eval ⟨addressType :: r, e, k⟩ =
        (err (.unsupportedSocksAddressType addressType), ⟨r, e, k⟩) := by
      rw [eval_readFrom, hread]
    rw [hfrom, hread, hdec]
    refine ⟨fun a n => by simp, fun _ error => by simp, fun _ => ⟨⟨_, rfl⟩, _, rfl⟩,
      ⟨1, Nat.le_of_eq hlen.symm, rfl⟩, ?_⟩
    rintro encoded w ⟨⟩
  · rw [hc.eval_readFrom, hc.length, hc.read]
    refine ⟨fun a n => ?_, fun _ error => hc.decode_eq_err, fun hlt => ?_, ⟨field.length, Nat.le_refl _, ?_⟩, ?_⟩
    · exact hc.decoded_iff
    · rw [List.length_append] at hlt
      omega
    · rw [List.drop_left' rfl]
    · rintro encoded w ⟨⟩
      exact ⟨rfl, hc.alone, hc.exact⟩

end Agree

end LzcSdk.RemoteSocks
