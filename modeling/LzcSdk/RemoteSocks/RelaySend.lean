import LzcSdk.RemoteSocks.RelayReceive

/-!
# Sending to the relay

A send on an association reads the flag, builds a datagram and hands it to the UDP socket (`sendToAssociated`, with the
flag and the answer of the kernel as arguments). It hands over exactly the datagrams that fit, and a datagram that the
relay sends back is received with its payload in full (`associated_send_exact`). The sends of the machine do the same,
whatever other calls do (`sends_of_reachable`).
-/

namespace LzcSdk.RemoteSocks.Association

open Outcome ByteIo Lts

variable (a : Association)

/-! ## One send -/

/-- `send_associated`: the datagrams handed to the UDP socket, and the result. `closed` is the flag that it reads, and
`kernel` what the socket answers. -/
def sendAssociated (closed : Bool) (kernel : List UInt8 → Except IoError Nat) (payload : List UInt8)
    (target : SocksAddress) : List (List UInt8) × Outcome Error Nat :=
  if closed then ([], err .remoteSocksControlClosed)
  else
    match associatedFrame a.b64 payload target with
    | ok frame => ([frame], sendResult payload frame (kernel frame))
    | err e => ([], err e)
    | panicked => ([], panicked)

/-- `send_to` on an association. -/
def sendToAssociated (closed : Bool) (kernel : List UInt8 → Except IoError Nat) (payload : List UInt8)
    (target : SocksAddress) : List (List UInt8) × Outcome Error Nat :=
  match sendTo (fun payload target => ok (a.sendAssociated closed kernel payload target)) payload target with
  | ok r => r
  | err e => ([], err e)
  | panicked => ([], panicked)

variable {a}

/-- A payload and a target that fit into one datagram. -/
def Fits (a : Association) (payload : List UInt8) (target : SocksAddress) (w : List UInt8) : Prop :=
  SocksAddress.encode a.b64 target = ok w ∧ 3 + w.length + payload.length ≤ MAX_UDP_PAYLOAD

theorem encode_ne_panicked (b64 : Base64.Engine) (target : SocksAddress) :
    SocksAddress.encode b64 target ≠ panicked := by
  have name : ∀ host port, encodeDomain [] host port ≠ panicked := by
    intro host port h
    rw [encodeDomain] at h
    rcases bind_eq_panicked.1 h with h | ⟨_, -, h⟩
    · exact validateWireString_ne_panicked host h
    · rcases bind_eq_panicked.1 h with h | ⟨_, -, h⟩
      · exact okOr_ne_panicked _ _ h
      · cases h
  match target with
  | .Ip (.v4 _ _) => rw [SocksAddress.encode]; simp
  | .Ip (.v6 _ _ _ _) => rw [SocksAddress.encode]; simp
  | .Domain host port => exact name host port
  | .Custom network address => exact name _ 0

/-- The frame of a payload that fits. -/
theorem associatedFrame_of_fits {payload w : List UInt8} {target : SocksAddress} (h : a.Fits payload target w) :
    associatedFrame a.b64 payload target = ok (SOCKS_UDP_PREFIX ++ w ++ payload) := by
  have hlen : ¬ MAX_UDP_PAYLOAD < SOCKS_UDP_PREFIX.length + w.length + payload.length := by
    have := h.2
    have h3 : SOCKS_UDP_PREFIX.length = 3 := rfl
    omega
  rw [associatedFrame, h.1, ok_bind]
  exact if_neg hlen

/-- Nothing else has a frame. -/
theorem exists_fits_of_associatedFrame {payload frame : List UInt8} {target : SocksAddress}
    (h : associatedFrame a.b64 payload target = ok frame) :
    ∃ w, a.Fits payload target w ∧ frame = SOCKS_UDP_PREFIX ++ w ++ payload := by
  obtain ⟨w, hw, h⟩ := bind_eq_ok.1 h
  dsimp only at h
  split_ifs at h with hlen
  cases h
  have h3 : SOCKS_UDP_PREFIX.length = 3 := rfl
  exact ⟨w, ⟨hw, by omega⟩, rfl⟩

theorem associatedFrame_ne_panicked (payload : List UInt8) (target : SocksAddress) :
    associatedFrame a.b64 payload target ≠ panicked := by
  intro h
  rcases bind_eq_panicked.1 h with h | ⟨w, -, h⟩
  · exact encode_ne_panicked a.b64 target h
  · dsimp only at h
    split_ifs at h

/-- A send that fits hands over its frame. -/
theorem sendToAssociated_of_fits {payload w : List UInt8} {target : SocksAddress} (h : a.Fits payload target w)
    (kernel : List UInt8 → Except IoError Nat) :
    a.sendToAssociated false kernel payload target = ([SOCKS_UDP_PREFIX ++ w ++ payload],
      sendResult payload (SOCKS_UDP_PREFIX ++ w ++ payload) (kernel (SOCKS_UDP_PREFIX ++ w ++ payload))) := by
  have hle : ¬ MAX_UDP_PAYLOAD < payload.length := by
    have := h.2
    omega
  simp only [sendToAssociated, sendTo, if_neg hle, sendAssociated, associatedFrame_of_fits h, Bool.false_eq_true,
    if_false]

/-- Any other send hands over nothing, and fails. -/
theorem sendToAssociated_of_not_fits {payload : List UInt8} {target : SocksAddress}
    (h : ¬ ∃ w, a.Fits payload target w) (kernel : List UInt8 → Except IoError Nat) :
    ∃ e, a.sendToAssociated false kernel payload target = ([], err e) := by
  by_cases hlen : MAX_UDP_PAYLOAD < payload.length
  · exact ⟨.socksUdpPayloadTooLarge, by simp only [sendToAssociated, sendTo, if_pos hlen]⟩
  · match hf : associatedFrame a.b64 payload target with
    | ok frame =>
      obtain ⟨w, hw, -⟩ := exists_fits_of_associatedFrame hf
      exact absurd ⟨w, hw⟩ h
    | err e =>
      refine ⟨e, ?_⟩
      simp only [sendToAssociated, sendTo, if_neg hlen, sendAssociated, hf, Bool.false_eq_true, if_false]
    | panicked => exact absurd hf (associatedFrame_ne_panicked payload target)

/-- A send succeeds when the kernel takes the whole datagram. -/
theorem sendResult_eq_ok {payload frame : List UInt8} {written : Except IoError Nat} {n : Nat} :
    sendResult payload frame written = ok n ↔ written = .ok frame.length ∧ n = payload.length := by
  unfold sendResult
  cases written with
  | error e => simp
  | ok k =>
    by_cases hk : k ≠ frame.length
    · simp [hk]
    · simp [not_not.1 hk, eq_comm]

/-! ## The sends of the machine -/

/-- Every call to `send_to` that returned has the result of the same call alone, for the flag and the answer of the
kernel that it got. -/
def Answered (a : Association) (s : State) : Prop :=
  ∀ t d target o, s.phase t = .finished (.send (.sendTo d target)) o →
    ∃ closed kernel, o = (a.sendToAssociated closed kernel d target).2 >>= fun n => ok (.sent n)

section Keep

variable {s s' : State} {act : Action} {t : Nat} {p : Phase} {d : List UInt8} {target : SocksAddress}

theorem eq_of_prepare_sendTo {payload : List UInt8} {target' : SocksAddress}
    (h : a.prepare (.send (.sendTo d target)) = ok (.send payload target')) : payload = d ∧ target' = target := by
  simp only [prepare, sendTo] at h
  split_ifs at h with hlen
  cases h
  exact ⟨rfl, rfl⟩

theorem length_of_prepare_sendTo {w : Work} (h : a.prepare (.send (.sendTo d target)) = ok w) :
    ¬ MAX_UDP_PAYLOAD < d.length := by
  intro hlen
  simp only [prepare, sendTo, if_pos hlen] at h
  cases h

theorem sendToAssociated_of_le (h : ¬ MAX_UDP_PAYLOAD < d.length) (closed : Bool)
    (kernel : List UInt8 → Except IoError Nat) :
    a.sendToAssociated closed kernel d target = a.sendAssociated closed kernel d target := by
  simp only [sendToAssociated, sendTo, if_neg h]

theorem Answered.update (h : a.Answered s) (hph : s'.phase = Function.update s.phase t p)
    (hp : ∀ d target o, p = .finished (.send (.sendTo d target)) o →
      ∃ closed kernel, o = (a.sendToAssociated closed kernel d target).2 >>= fun n => ok (.sent n)) :
    a.Answered s' := by
  intro u d target o hu
  rw [hph] at hu
  rcases eq_or_ne u t with rfl | hne
  · rw [Function.update_self] at hu
    exact hp d target o hu
  · rw [Function.update_of_ne hne] at hu
    exact h u d target o hu

/-- A call that does not return, or is no send. -/
theorem Answered.other (h : a.Answered s) (hph : s'.phase = Function.update s.phase t p)
    (hp : ∀ c o, p ≠ .finished (.send c) o) : a.Answered s' :=
  h.update hph fun _ _ o he => absurd he (hp _ o)

theorem answered_step (hi : a.Inv s) (hc : a.Calls s) (h : a.Answered s) (ha : a.Trans s act s') : a.Answered s' := by
  -- what the kernel answers does not matter where nothing is handed over
  let silent : List UInt8 → Except IoError Nat := fun _ => .ok 0
  cases ha with
  | call | enter | select | foreignClosed | foreign | changed | socketError | leaveQueue | abandon | abandonSend =>
    exact h.other rfl (by simp [Association.closed])
  | @relayed t c payload packet bytes arrived hph harr =>
    refine h.other rfl fun c' o hp => ?_
    unfold afterPacket at hp
    split at hp
    · split at hp <;> cases hp
    · cases hp
    · cases hp
  | @refuse t c o hph hp ho =>
    refine h.update rfl fun d target o' he => ?_
    cases he
    refine ⟨false, silent, ?_⟩
    by_cases hlen : MAX_UDP_PAYLOAD < d.length
    · rw [ho]
      simp only [prepare, sendToAssociated, sendTo, if_pos hlen]
      rfl
    · exact absurd (by simp only [prepare, sendTo, if_neg hlen]) (hp (.send d target))
  | @closed t c w hph hh hv =>
    refine h.update rfl fun d target o he => ?_
    cases he
    refine ⟨true, silent, ?_⟩
    rw [sendToAssociated_of_le (length_of_prepare_sendTo (hi.prepared t _ _ hph)), sendAssociated, if_pos rfl]
    rfl
  | @flag t c payload target hph hh hv =>
    refine h.update rfl fun d target' o he => ?_
    unfold afterFlag at he
    have hprep := hi.prepared t _ _ hph
    split at he
    · cases he
    · cases he
      obtain ⟨rfl, rfl⟩ := eq_of_prepare_sendTo hprep
      refine ⟨false, silent, ?_⟩
      rw [sendToAssociated_of_le (length_of_prepare_sendTo hprep), sendAssociated, if_neg (by simp)]
      simp only [*]
      rfl
    · exact absurd ‹_› (associatedFrame_ne_panicked payload target)
  | @transmit t c payload frame written hph =>
    refine h.update rfl fun d target o he => ?_
    cases he
    obtain ⟨target', hprep, hframe⟩ := hc.sending t _ _ _ hph
    obtain ⟨rfl, rfl⟩ := eq_of_prepare_sendTo hprep
    refine ⟨false, fun _ => written, ?_⟩
    rw [sendToAssociated_of_le (length_of_prepare_sendTo hprep), sendAssociated, if_neg (by simp), hframe]
  | arrive | controlData | controlEnd | report => exact h

/-- The sends of the machine do what they do alone. -/
theorem answered_of_reachable {guard : State → Action → Prop} (h : Reachable a.step guard init s) : a.Answered s := by
  have hall : a.Inv s ∧ a.Calls s ∧ a.Answered s := by
    refine h.invariant (I := fun s => a.Inv s ∧ a.Calls s ∧ a.Answered s) ⟨inv_init, calls_init, ?_⟩ ?_
    · intro t d target o hph
      cases hph
    · rintro s act s' ⟨hi, hc, hs⟩ - ha
      have ht := trans_of_step ha
      exact ⟨inv_step hi ht, calls_step hi hc ht, answered_step hi hc hs ht⟩
  exact hall.2.2

/-- A send that is about to hand over a datagram hands over its frame. -/
theorem fits_of_sending {guard : State → Action → Prop} {payload frame : List UInt8}
    (h : Reachable a.step guard init s) (hph : s.phase t = .sending (.sendTo d target) payload frame) :
    ∃ w, a.Fits d target w ∧ frame = SOCKS_UDP_PREFIX ++ w ++ d := by
  obtain ⟨target', hprep, hframe⟩ := (calls_of_reachable h).sending t _ _ _ hph
  obtain ⟨rfl, rfl⟩ := eq_of_prepare_sendTo hprep
  exact exists_fits_of_associatedFrame hframe

end Keep

/-! ## There and back -/

/-- A datagram that the relay sends back is received with its payload in full. -/
theorem recvAssociated_of_fits {d w buffer : List UInt8} {target source : SocksAddress} (h : a.Fits d target w)
    (hsource : SocksAddress.decode a.b64 w = ok source) (hb : d.length ≤ buffer.length) (rest : List Arrival) :
    a.recvAssociated buffer (.datagram a.relay (SOCKS_UDP_PREFIX ++ w ++ d) :: rest) =
      some (ok ⟨d.length, source, d ++ buffer.drop d.length⟩, rest) := by
  have hlen : (SOCKS_UDP_PREFIX ++ w ++ d).length ≤ MAX_UDP_PAYLOAD := by
    have := h.2
    simp only [List.length_append]
    have h3 : SOCKS_UDP_PREFIX.length = 3 := rfl
    omega
  have hdec : SocksAddress.decodePrefix a.b64 (w ++ d) = ok (source, w.length) := by
    have hp := (decode_eq_ok a.b64).1 hsource
    have hcanonical := ((decode_canonical a.b64 w).1 source w.length hp).2.2.2 d
    rwa [List.take_length] at hcanonical
  have hd : datagramOf a.b64 (SOCKS_UDP_PREFIX ++ w ++ d) = ok (source, d) :=
    (datagramOf_eq_ok a.b64).2 ⟨w, rfl, hdec⟩
  rw [recvAssociated_eq, nextDelivery, if_pos rfl, List.take_of_length_le hlen, hd, Option.map_some, into_ok,
    copyPayload_of_le hb]

/-- **What a send hands over, and what comes back.** A send with the control stream open hands a datagram to the UDP
socket exactly when its address is encoded and the whole fits; then the datagram is `00 00 00`, the address and the
payload, and the call succeeds exactly when the kernel takes all of it; otherwise nothing is handed over and the call
fails. A datagram that the relay sends back unchanged is received in full, with the decoded address for its source.
The calls of the machine hand over the same and return the same. -/
theorem associated_send_exact (a : Association) (target : SocksAddress) (d : List UInt8) :
    (∀ kernel, (a.sendToAssociated false kernel d target).1 ≠ [] ↔
      ∃ w, SocksAddress.encode a.b64 target = ok w ∧ 3 + w.length + d.length ≤ 65507) ∧
    (∀ kernel w, SocksAddress.encode a.b64 target = ok w → 3 + w.length + d.length ≤ 65507 →
      (a.sendToAssociated false kernel d target).1 = [[0, 0, 0] ++ w ++ d] ∧
      ∀ n, (a.sendToAssociated false kernel d target).2 = ok n ↔
        kernel ([0, 0, 0] ++ w ++ d) = .ok ([0, 0, 0] ++ w ++ d).length ∧ n = d.length) ∧
    (∀ kernel, (¬ ∃ w, SocksAddress.encode a.b64 target = ok w ∧ 3 + w.length + d.length ≤ 65507) →
      ∃ e, a.sendToAssociated false kernel d target = ([], err e)) ∧
    (∀ w source buffer rest, SocksAddress.encode a.b64 target = ok w → 3 + w.length + d.length ≤ 65507 →
      SocksAddress.decode a.b64 w = ok source → d.length ≤ buffer.length →
      ([0, 0, 0] ++ w ++ d).length ≤ (List.replicate MAX_UDP_PAYLOAD (0 : UInt8)).length ∧
      a.recvAssociated buffer (.datagram a.relay ([0, 0, 0] ++ w ++ d) :: rest) =
        some (ok ⟨d.length, source, d ++ buffer.drop d.length⟩, rest)) ∧
    (∀ s t payload frame, Reachable a.step anyStep init s → s.phase t = .sending (.sendTo d target) payload frame →
      ∀ kernel, (a.sendToAssociated false kernel d target).1 = [frame]) ∧
    ∀ s t o, Reachable a.step anyStep init s → s.phase t = .finished (.send (.sendTo d target)) o →
      ∃ closed kernel, o = (a.sendToAssociated closed kernel d target).2 >>= fun n => ok (.sent n) := by
  refine ⟨fun kernel => ⟨fun h => ?_, ?_⟩, fun kernel w hw hlen => ?_, fun kernel h => ?_, ?_, ?_, ?_⟩
  · by_contra hn
    obtain ⟨e, he⟩ := sendToAssociated_of_not_fits (a := a) hn kernel
    rw [he] at h
    exact h rfl
  · rintro ⟨w, hw, hlen⟩
    rw [sendToAssociated_of_fits ⟨hw, hlen⟩]
    simp
  · rw [sendToAssociated_of_fits ⟨hw, hlen⟩]
    exact ⟨rfl, fun n => sendResult_eq_ok⟩
  · exact sendToAssociated_of_not_fits h kernel
  · intro w source buffer rest hw hlen hsource hb
    refine ⟨?_, recvAssociated_of_fits ⟨hw, hlen⟩ hsource hb rest⟩
    rw [List.length_replicate]
    simp only [List.length_append, List.length_cons, List.length_nil]
    exact hlen
  · intro s t payload frame h hph kernel
    obtain ⟨w, hw, rfl⟩ := fits_of_sending h hph
    rw [sendToAssociated_of_fits hw]
  · intro s t o h hph
    exact answered_of_reachable h t d target o hph

/-- A query comes back from a name server. -/
theorem associated_send_exact_back :
    let a : Association := ⟨Base64.standardNoPad, .v4 (Ipv4Addr.new 10 0 0 1) 1080, none⟩
    a.recvAssociated [0, 0, 0]
        [.datagram a.relay ([0, 0, 0] ++ domainWire "example.com" 53 ++ [0x68, 0x69])] =
      some (ok ⟨2, .Domain "example.com" 53, [0x68, 0x69, 0]⟩, []) := by
  intro a
  have hencode : SocksAddress.encode a.b64 (.Domain "example.com" 53) = ok (domainWire "example.com" 53) := by
    decide +kernel
  have hdecode : SocksAddress.decode a.b64 (domainWire "example.com" 53) = ok (.Domain "example.com" 53) := by
    decide +kernel
  have h := (associated_send_exact a (.Domain "example.com" 53) [0x68, 0x69]).2.2.2.1 (domainWire "example.com" 53)
    (.Domain "example.com" 53) [0, 0, 0] [] hencode (by decide) hdecode (by decide)
  exact h.2

end LzcSdk.RemoteSocks.Association
