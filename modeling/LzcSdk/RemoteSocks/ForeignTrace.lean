import LzcSdk.RemoteSocks.FixedPeer

/-!
# What filtered datagrams leave behind

`recv` filters the datagrams that do not come from the fixed peer, but each of them has been copied into the caller's
buffer. Two sequences of arrivals that differ in such datagrams alone give the same result (`outcome_receive`); the
buffers are the same exactly when, past the end of the datagram that ends the call, the last foreign datagram that
reaches an index left the same byte there (`SameBehind`, `foreign_datagrams_leave`). Next to the same arrivals without
the foreign ones, no byte of these remains exactly when each left the byte that the buffer had
(`no_foreign_byte_remains_iff`).
-/

namespace LzcSdk.RemoteSocks

open Outcome ByteIo

section Abstract

variable (peer : SocksAddress)

/-- The payloads of the foreign datagrams before the first other delivery. -/
def passed (ds : List Delivery) : List (List UInt8) := (ds.takeWhile (Delivery.isForeign peer)).map Delivery.payload

/-- The delivery that ends the call. -/
def decisive (ds : List Delivery) : Option Delivery := ds.find? fun d => !d.isForeign peer

/-- The call ends with the first delivery that is not foreign, on a buffer that the foreign ones have written to. -/
theorem receive_eq (buffer : List UInt8) (ds : List Delivery) :
    receive peer buffer ds = (decisive peer ds).map (Delivery.settle (Overlay.layers buffer (passed peer ds))) := by
  induction ds generalizing buffer with
  | nil => rfl
  | cons d ds ih =>
    rw [receive, decisive, passed]
    cases hd : d.isForeign peer with
    | true =>
      rw [if_pos rfl, ih, List.find?_cons_of_neg (by simp [hd]), List.takeWhile_cons_of_pos hd]
      rfl
    | false =>
      rw [if_neg (by simp), List.find?_cons_of_pos (by simp [hd]), List.takeWhile_cons_of_neg (by simp [hd])]
      rfl

/-- At every index past the end of the datagram that ends the call, the last foreign datagram that reaches it left the
same byte in both sequences, or the byte of the buffer where none reaches it. -/
def SameBehind (buffer : List UInt8) (ds es : List Delivery) : Prop :=
  ∀ d, decisive peer ds = some d → ∀ i, d.payload.length ≤ i → i < buffer.length →
    (Overlay.top (passed peer ds) i).or buffer[i]? = (Overlay.top (passed peer es) i).or buffer[i]?

variable {peer} {buffer : List UInt8} {ds es : List Delivery}
  (h : ds.filter (fun d => !d.isForeign peer) = es.filter fun d => !d.isForeign peer)

include h

theorem decisive_congr : decisive peer ds = decisive peer es := by
  rw [decisive, decisive, ← List.head?_filter, ← List.head?_filter, h]

/-- Foreign datagrams do not change the result. -/
theorem outcome_receive :
    (receive peer buffer ds).map PeerReceived.outcome = (receive peer buffer es).map PeerReceived.outcome := by
  rw [receive_eq, receive_eq, decisive_congr h]
  cases decisive peer es with
  | none => rfl
  | some d =>
    refine congrArg some (Delivery.outcome_settle ?_ d)
    rw [Overlay.length_layers, Overlay.length_layers]

/-- **When foreign datagrams leave no trace in the buffer.** -/
theorem receive_eq_iff : receive peer buffer ds = receive peer buffer es ↔ SameBehind peer buffer ds es := by
  have houtcome : (receive peer buffer ds).map PeerReceived.outcome = (receive peer buffer es).map _ :=
    outcome_receive h
  rw [SameBehind, decisive_congr h]
  rw [receive_eq, receive_eq, decisive_congr h] at houtcome ⊢
  revert houtcome
  cases decisive peer es with
  | none => simp
  | some d =>
    intro houtcome
    have hout : (d.settle (Overlay.layers buffer (passed peer ds))).outcome =
        (d.settle (Overlay.layers buffer (passed peer es))).outcome := Option.some.inj houtcome
    have hbuffer := Overlay.overlay_layers_eq_iff (passed peer ds) (passed peer es) buffer d.payload
    rw [← Delivery.buffer_settle, ← Delivery.buffer_settle] at hbuffer
    constructor
    · intro heq d' hd'
      cases hd'
      exact hbuffer.1 (congrArg PeerReceived.buffer (Option.some.inj heq))
    · intro hsame
      have hb := hbuffer.2 (hsame d rfl)
      exact congrArg some (PeerReceived.ext hout hb)

end Abstract

section Filtered

variable (peer : SocksAddress)

/-- No foreign datagram is seen in the buffer: at every index past the end of the datagram that ends the call, the last
foreign one that reaches it left the byte that the buffer had there. -/
def NothingRemains (buffer : List UInt8) (ds : List Delivery) : Prop :=
  ∀ d, decisive peer ds = some d → ∀ i, d.payload.length ≤ i → i < buffer.length →
    ∀ byte, Overlay.top (passed peer ds) i = some byte → buffer[i]? = some byte

variable {peer}

theorem passed_filter (ds : List Delivery) : passed peer (ds.filter fun d => !d.isForeign peer) = [] := by
  have hnone : (ds.filter fun d => !d.isForeign peer).takeWhile (Delivery.isForeign peer) = [] := by
    rw [List.takeWhile_eq_nil_iff]
    intro hlen
    simpa using (List.mem_filter.1 (List.getElem_mem hlen)).2
  rw [passed, hnone, List.map_nil]

/-- **When foreign datagrams are not seen at all**, next to the same arrivals without them. -/
theorem receive_filter_iff (buffer : List UInt8) (ds : List Delivery) :
    receive peer buffer ds = receive peer buffer (ds.filter fun d => !d.isForeign peer) ↔
      NothingRemains peer buffer ds := by
  rw [receive_eq_iff (by rw [List.filter_filter]; simp), SameBehind, NothingRemains, passed_filter]
  have entry : ∀ i, (Overlay.top (passed peer ds) i).or buffer[i]? = (Overlay.top [] i).or buffer[i]? ↔
      ∀ byte, Overlay.top (passed peer ds) i = some byte → buffer[i]? = some byte := by
    intro i
    cases Overlay.top (passed peer ds) i with
    | none => simp [Overlay.top]
    | some byte => simp [Overlay.top, eq_comm]
  simp only [entry]

end Filtered

/-! ## On both transports -/

/-- A datagram that does not come from the relay, or one of the relay whose source is not the peer. -/
def Association.isForeign (a : Association) (peer : SocksAddress) : Arrival → Bool
  | .datagram source bytes =>
    source ≠ a.relay || (datagramOf a.b64 (bytes.take MAX_UDP_PAYLOAD)).isForeign peer
  | _ => false

theorem Association.deliveries_filter (a : Association) (peer : SocksAddress) (arrivals : List Arrival) :
    a.deliveries (arrivals.filter fun x => !a.isForeign peer x) =
      (a.deliveries arrivals).filter fun d => !d.isForeign peer := by
  induction arrivals with
  | nil => rfl
  | cons x arrivals ih =>
    cases x with
    | datagram source bytes =>
      by_cases hs : source = a.relay
      · cases hd : (datagramOf a.b64 (bytes.take MAX_UDP_PAYLOAD)).isForeign peer with
        | true =>
          have hx : a.isForeign peer (.datagram source bytes) = true := by simp [isForeign, hd]
          rw [List.filter_cons_of_neg (by simp [hx]), ih, deliveries, if_pos hs, List.filter_cons_of_neg (by simp [hd])]
        | false =>
          have hx : a.isForeign peer (.datagram source bytes) = false := by simp [isForeign, hd, hs]
          rw [List.filter_cons_of_pos (by simp [hx]), deliveries, if_pos hs, ih, deliveries, if_pos hs,
            List.filter_cons_of_pos (by simp [hd])]
      · have hx : a.isForeign peer (.datagram source bytes) = true := by simp [isForeign, hs]
        rw [List.filter_cons_of_neg (by simp [hx]), ih, deliveries, if_neg hs]
    | failed error =>
      rw [List.filter_cons_of_pos (by rfl), deliveries, ih, deliveries, List.filter_cons_of_pos (by rfl)]
    | closed => rfl

/-- One `recv` on an association. -/
theorem recv_associated (a : Association) {peer : SocksAddress} (hp : a.peerAddr = some peer) {fuel : Nat}
    {arrivals : List Arrival} (hf : arrivals.length < fuel) (buffer : List UInt8) :
    (recv a.recvAssociated a.peerAddr fuel buffer arrivals).map Prod.fst =
      receive peer buffer (a.deliveries arrivals) := by
  rw [hp]
  exact recvPeer_of_offers (a.offers_deliveries arrivals) buffer ((a.length_deliveries_le arrivals).trans_lt hf)

/-- One `recv` on a framed stream. -/
theorem recv_framed (peer : SocksAddress) {fuel : Nat} {frames : List Frame} (hf : frames.length + 1 < fuel)
    {tail : List UInt8} (ht : IsTail tail) (ending : Option Ending) (buffer : List UInt8) :
    (recv recvFramedFrom (some peer) fuel buffer ⟨bytesOf frames ++ tail, ending⟩).map Prod.fst =
      receive peer buffer (deliveriesOf frames ending) := by
  refine recvPeer_of_offers (offers_deliveriesOf ht ending frames) buffer (lt_of_le_of_lt ?_ hf)
  cases ending <;> simp [deliveriesOf]

theorem deliveriesOf_filter (peer : SocksAddress) (frames : List Frame) (ending : Option Ending) :
    deliveriesOf (frames.filter fun f => !f.delivery.isForeign peer) ending =
      (deliveriesOf frames ending).filter fun d => !d.isForeign peer := by
  have hmap : (frames.map Frame.delivery).filter (fun d => !d.isForeign peer) =
      (frames.filter fun f => !f.delivery.isForeign peer).map Frame.delivery := List.filter_map
  have hend : ((ending.map fun e => (err (fromIo e.error) : Delivery)).toList).filter
      (fun d => !Delivery.isForeign peer d) = (ending.map fun e => (err (fromIo e.error) : Delivery)).toList := by
    cases ending <;> rfl
  rw [deliveriesOf, deliveriesOf, List.filter_append, hmap, hend]

/-- **What foreign datagrams leave.** Two sequences of arrivals that are equal without the foreign datagrams give the
same result of `recv` on either transport, or both make it wait. The caller's buffers are the same too exactly when,
past the end of the accepted datagram, the last foreign datagram that reaches an index left the same byte there in both
sequences; an error ends the call at the front of the buffer. -/
theorem foreign_datagrams_leave (peer : SocksAddress) (buffer : List UInt8) :
    (∀ (a : Association) (xs ys : List Arrival) (m n : Nat), a.peerAddr = some peer → xs.length < m → ys.length < n →
      xs.filter (fun x => !a.isForeign peer x) = ys.filter (fun x => !a.isForeign peer x) →
      let x := (recv a.recvAssociated a.peerAddr m buffer xs).map Prod.fst
      let y := (recv a.recvAssociated a.peerAddr n buffer ys).map Prod.fst
      x.map PeerReceived.outcome = y.map PeerReceived.outcome ∧
        (x = y ↔ SameBehind peer buffer (a.deliveries xs) (a.deliveries ys))) ∧
    ∀ (xs ys : List Frame) (tail : List UInt8) (ending : Option Ending) (m n : Nat), IsTail tail →
      xs.length + 1 < m → ys.length + 1 < n →
      xs.filter (fun f => !f.delivery.isForeign peer) = ys.filter (fun f => !f.delivery.isForeign peer) →
      let x := (recv recvFramedFrom (some peer) m buffer ⟨bytesOf xs ++ tail, ending⟩).map Prod.fst
      let y := (recv recvFramedFrom (some peer) n buffer ⟨bytesOf ys ++ tail, ending⟩).map Prod.fst
      x.map PeerReceived.outcome = y.map PeerReceived.outcome ∧
        (x = y ↔ SameBehind peer buffer (deliveriesOf xs ending) (deliveriesOf ys ending)) := by
  refine ⟨fun a xs ys m n hp hm hn h => ?_, fun xs ys tail ending m n ht hm hn h => ?_⟩
  · have hds : (a.deliveries xs).filter (fun d => !d.isForeign peer) =
        (a.deliveries ys).filter fun d => !d.isForeign peer := by
      rw [← a.deliveries_filter, h, a.deliveries_filter]
    simp only [recv_associated a hp hm, recv_associated a hp hn]
    exact ⟨outcome_receive hds, receive_eq_iff hds⟩
  · have hds : (deliveriesOf xs ending).filter (fun d => !d.isForeign peer) =
        (deliveriesOf ys ending).filter fun d => !d.isForeign peer := by
      rw [← deliveriesOf_filter, h, deliveriesOf_filter]
    simp only [recv_framed peer hm ht, recv_framed peer hn ht]
    exact ⟨outcome_receive hds, receive_eq_iff hds⟩

/-- **When no byte of a foreign datagram remains.** The result and the buffer of `recv` on either transport are those on
the same arrivals without the foreign datagrams exactly when none of these is seen past the end of the accepted one. -/
theorem no_foreign_byte_remains_iff (peer : SocksAddress) (buffer : List UInt8) :
    (∀ (a : Association) (xs : List Arrival) (m : Nat), a.peerAddr = some peer → xs.length < m →
      ((recv a.recvAssociated a.peerAddr m buffer xs).map Prod.fst =
        (recv a.recvAssociated a.peerAddr m buffer (xs.filter fun x => !a.isForeign peer x)).map Prod.fst ↔
      NothingRemains peer buffer (a.deliveries xs))) ∧
    ∀ (xs : List Frame) (tail : List UInt8) (ending : Option Ending) (m : Nat), IsTail tail → xs.length + 1 < m →
      ((recv recvFramedFrom (some peer) m buffer ⟨bytesOf xs ++ tail, ending⟩).map Prod.fst =
        (recv recvFramedFrom (some peer) m buffer
          ⟨bytesOf (xs.filter fun f => !f.delivery.isForeign peer) ++ tail, ending⟩).map Prod.fst ↔
      NothingRemains peer buffer (deliveriesOf xs ending)) := by
  constructor
  · intro a xs m hp hm
    have hm' := (List.length_filter_le (fun x => !a.isForeign peer x) xs).trans_lt hm
    rw [recv_associated a hp hm, recv_associated a hp hm', a.deliveries_filter]
    exact receive_filter_iff buffer _
  · intro xs tail ending m ht hm
    have hm' := (Nat.succ_le_succ (List.length_filter_le (fun f => !f.delivery.isForeign peer) xs)).trans_lt hm
    rw [recv_framed peer hm ht, recv_framed peer hm' ht, deliveriesOf_filter]
    exact receive_filter_iff buffer _

/-- The association and the datagrams of the two runs below. -/
def resolverSocket : Association :=
  ⟨Base64.standardNoPad, .v4 (Ipv4Addr.new 10 0 0 1) 1080, some (.Ip (.v4 (Ipv4Addr.new 1 1 1 1) 53))⟩

/-- A datagram of the peer with one byte, and a foreign one with four. -/
def answerOfPeer : Arrival := .datagram resolverSocket.relay [0, 0, 0, 1, 1, 1, 1, 1, 0, 53, 0x62]
def answerOfOther : Arrival := .datagram resolverSocket.relay [0, 0, 0, 1, 8, 8, 8, 8, 0, 53, 0x41, 0x41, 0x41, 0x41]

/-- A foreign datagram that is longer than the accepted one is seen in the buffer. -/
theorem foreign_datagrams_leave_trace : ¬ ∀ (a : Association) (peer : SocksAddress) (buffer : List UInt8)
    (xs ys : List Arrival) (m n : Nat), a.peerAddr = some peer → xs.length < m → ys.length < n →
    xs.filter (fun x => !a.isForeign peer x) = ys.filter (fun x => !a.isForeign peer x) →
    (recv a.recvAssociated a.peerAddr m buffer xs).map Prod.fst =
      (recv a.recvAssociated a.peerAddr n buffer ys).map Prod.fst := by
  intro h
  have hsame := h resolverSocket (.Ip (.v4 (Ipv4Addr.new 1 1 1 1) 53)) [0, 0, 0, 0] [answerOfOther, answerOfPeer]
    [answerOfPeer] 3 2 rfl (by decide) (by decide) (by decide +kernel)
  rw [recv_associated resolverSocket rfl (by decide), recv_associated resolverSocket rfl (by decide)] at hsame
  exact absurd hsame (by decide +kernel)

/-- A foreign datagram that is no longer than the accepted one is not seen. -/
theorem foreign_datagrams_leave_nothing :
    (recv resolverSocket.recvAssociated resolverSocket.peerAddr 3 [0, 0, 0, 0]
        [.datagram resolverSocket.relay [0, 0, 0, 1, 8, 8, 8, 8, 0, 53, 0x41], answerOfPeer]).map Prod.fst =
      (recv resolverSocket.recvAssociated resolverSocket.peerAddr 2 [0, 0, 0, 0] [answerOfPeer]).map Prod.fst := by
  have h := (foreign_datagrams_leave (.Ip (.v4 (Ipv4Addr.new 1 1 1 1) 53)) [0, 0, 0, 0]).1 resolverSocket
    [.datagram resolverSocket.relay [0, 0, 0, 1, 8, 8, 8, 8, 0, 53, 0x41], answerOfPeer] [answerOfPeer] 3 2 rfl
    (by decide) (by decide) (by decide +kernel)
  refine h.2.2 fun d hd i hlen hi => ?_
  have hd' : d = ok (.Ip (.v4 (Ipv4Addr.new 1 1 1 1) 53), [0x62]) := by
    have hdec : decisive (.Ip (.v4 (Ipv4Addr.new 1 1 1 1) 53)) (resolverSocket.deliveries
        [.datagram resolverSocket.relay [0, 0, 0, 1, 8, 8, 8, 8, 0, 53, 0x41], answerOfPeer]) =
        some (ok (.Ip (.v4 (Ipv4Addr.new 1 1 1 1) 53), [0x62])) := by decide +kernel
    exact Option.some.inj (hd.symm.trans hdec)
  subst hd'
  have hlt : i = 1 ∨ i = 2 ∨ i = 3 := by
    simp only [Delivery.payload, List.length_cons, List.length_nil] at hlen hi
    omega
  rcases hlt with rfl | rfl | rfl <;> decide +kernel

end LzcSdk.RemoteSocks
