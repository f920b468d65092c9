import LzcSdk.Lib.Overlay
import LzcSdk.RemoteSocks.AssociatedRecv
import LzcSdk.RemoteSocks.FramedStream

/-!
# Receiving from the fixed peer

`recv` calls `recv_from` until a datagram comes from the fixed peer, and every call writes to the caller's buffer
(`recv`, for either transport). What it does depends on the deliveries of the transport alone (`receive`,
`recvPeer_of_offers`): on an association these are what the datagrams of the relay say (`Association.deliveries`), and
on a framed stream its frames (`deliveriesOf`).
-/

namespace LzcSdk.RemoteSocks

open Outcome ByteIo

/-! ## `recv` -/

/-- What a call of `recv` gives: its result, and what is in the caller's buffer then. -/
@[ext]
structure PeerReceived where
  outcome : Outcome Error Nat
  buffer : List UInt8
  deriving DecidableEq

section Recv

variable {σ : Type} (recvFrom : List UInt8 → σ → Option (Outcome Error Received × σ))

/-- The loop of `recv`; `none` while it waits, and when it goes on for longer than the fuel. -/
def recvPeer (peer : SocksAddress) : Nat → List UInt8 → σ → Option (PeerReceived × σ)
  | 0, _, _ => none
  | fuel + 1, payload, s =>
    match recvFrom payload s with
    | none => none
    | some (ok r, s) =>
      if r.source = peer then some (⟨ok r.copied, r.buffer⟩, s) else recvPeer peer fuel r.buffer s
    | some (err e, s) => some (⟨err e, payload⟩, s)
    | some (panicked, s) => some (⟨panicked, payload⟩, s)

/-- Receive one datagram from the fixed peer, filtering other sources. -/
def recv (peerAddr : Option SocksAddress) (fuel : Nat) (payload : List UInt8) (s : σ) : Option (PeerReceived × σ) :=
  match peerAddr with
  | none => some (⟨err .socksUdpNotConnected, payload⟩, s)
  | some peer => recvPeer recvFrom peer fuel payload s

end Recv

/-! ## Deliveries -/

namespace Delivery

/-- The payload of a datagram. -/
def payload : Delivery → List UInt8
  | ok (_, payload) => payload
  | _ => []

/-- A well-formed datagram whose source is not the peer. -/
def isForeign (peer : SocksAddress) : Delivery → Bool
  | ok (source, _) => source ≠ peer
  | _ => false

/-- What `recv` gives on a datagram that it does not filter. -/
def settle (buffer : List UInt8) : Delivery → PeerReceived
  | ok (_, payload) => ⟨ok (copyPayload buffer payload).1, (copyPayload buffer payload).2⟩
  | err e => ⟨err e, buffer⟩
  | panicked => ⟨panicked, buffer⟩

theorem buffer_settle (buffer : List UInt8) (d : Delivery) :
    (d.settle buffer).buffer = Overlay.overlay buffer d.payload := by
  cases d with
  | ok x => rfl
  | err e => exact (Overlay.overlay_nil buffer).symm
  | panicked => exact (Overlay.overlay_nil buffer).symm

/-- The result depends on the length of the buffer alone. -/
theorem outcome_settle {buffer buffer' : List UInt8} (h : buffer.length = buffer'.length) (d : Delivery) :
    (d.settle buffer).outcome = (d.settle buffer').outcome := by
  cases d with
  | ok x => simp only [settle, copyPayload, h]
  | err e => rfl
  | panicked => rfl

end Delivery

/-- `recv` on the deliveries of a transport; `none` while it waits for more. -/
def receive (peer : SocksAddress) : List UInt8 → List Delivery → Option PeerReceived
  | _, [] => none
  | buffer, d :: ds =>
    if d.isForeign peer then receive peer (Overlay.overlay buffer d.payload) ds else some (d.settle buffer)

section Offers

variable {σ : Type} (recvFrom : List UInt8 → σ → Option (Outcome Error Received × σ))

/-- A transport delivers some datagrams one after another, whatever the buffers are, and then it waits or fails. -/
inductive Offers : σ → List Delivery → Prop
  | waits {s : σ} (h : ∀ payload, recvFrom payload s = none) : Offers s []
  | delivers {s s' : σ} {x : SocksAddress × List UInt8} {ds : List Delivery}
    (h : ∀ payload, recvFrom payload s = some (Delivery.into payload (ok x), s')) (hrest : Offers s' ds) :
    Offers s (ok x :: ds)
  | fails {s r : σ} {d : Delivery} {ds : List Delivery} (hd : ∀ x, d ≠ ok x)
    (h : ∀ payload, recvFrom payload s = some (d.into payload, r)) : Offers s (d :: ds)

variable {recvFrom}

/-- **`recv` depends on the deliveries alone.** -/
theorem recvPeer_of_offers {peer : SocksAddress} {s : σ} {ds : List Delivery} (h : Offers recvFrom s ds) :
    ∀ {fuel : Nat} (buffer : List UInt8), ds.length < fuel →
      (recvPeer recvFrom peer fuel buffer s).map Prod.fst = receive peer buffer ds := by
  induction h with
  | waits h =>
    intro fuel buffer hf
    obtain ⟨fuel, rfl⟩ := Nat.exists_eq_add_of_lt hf
    simp only [recvPeer, h]
    rfl
  | @delivers s s' x ds h hrest ih =>
    intro fuel buffer hf
    obtain ⟨fuel, rfl⟩ : ∃ n, fuel = n + 1 := ⟨fuel - 1, by omega⟩
    have hf' : ds.length < fuel := Nat.lt_of_succ_lt_succ hf
    have hinto : Delivery.into buffer (ok x) =
        ok ⟨(copyPayload buffer x.2).1, x.1, (copyPayload buffer x.2).2⟩ := rfl
    simp only [recvPeer, h, hinto, receive, Delivery.isForeign, ne_eq, decide_not, Bool.not_eq_true',
      decide_eq_false_iff_not]
    by_cases hx : x.1 = peer
    · rw [if_pos hx, if_neg (not_not.2 hx)]
      rfl
    · rw [if_neg hx, if_pos hx]
      exact ih _ hf'
  | @fails s s' d ds hd h =>
    intro fuel buffer hf
    obtain ⟨fuel, rfl⟩ : ∃ n, fuel = n + 1 := ⟨fuel - 1, by omega⟩
    cases d with
    | ok x => exact absurd rfl (hd x)
    | err e =>
      have hinto : Delivery.into buffer (err e) = err e := rfl
      simp only [recvPeer, h, hinto, receive]
      rfl
    | panicked =>
      have hinto : Delivery.into buffer panicked = panicked := rfl
      simp only [recvPeer, h, hinto, receive]
      rfl

/-- Where every receive does the same, the deliveries are the same. -/
theorem Offers.congr {s s' : σ} {ds : List Delivery} (hs : ∀ payload, recvFrom payload s = recvFrom payload s')
    (h : Offers recvFrom s' ds) : Offers recvFrom s ds := by
  cases h with
  | waits h => exact .waits fun payload => (hs payload).trans (h payload)
  | delivers h hrest => exact .delivers (fun payload => (hs payload).trans (h payload)) hrest
  | fails hd h => exact .fails hd fun payload => (hs payload).trans (h payload)

end Offers

/-! ## On an association -/

namespace Association

variable (a : Association)

/-- What the arrivals deliver: what the datagrams of the relay say, up to the end of the control stream. -/
def deliveries : List Arrival → List Delivery
  | [] => []
  | .datagram source bytes :: arrivals =>
    if source = a.relay then datagramOf a.b64 (bytes.take MAX_UDP_PAYLOAD) :: deliveries arrivals
    else deliveries arrivals
  | .failed error :: arrivals => err (fromIo error) :: deliveries arrivals
  | .closed :: _ => [err .remoteSocksControlClosed]

theorem length_deliveries_le (arrivals : List Arrival) : (a.deliveries arrivals).length ≤ arrivals.length := by
  induction arrivals with
  | nil => exact le_refl _
  | cons x arrivals ih =>
    cases x with
    | datagram source bytes =>
      rw [deliveries]
      split
      · exact Nat.succ_le_succ ih
      · exact ih.trans (Nat.le_succ _)
    | failed error => exact Nat.succ_le_succ ih
    | closed => exact Nat.succ_le_succ (Nat.zero_le _)

/-- The loop of `recv_associated` makes the deliveries of what arrives. -/
theorem offers_deliveries (arrivals : List Arrival) : Offers a.recvAssociated arrivals (a.deliveries arrivals) := by
  induction arrivals with
  | nil => exact .waits fun payload => by rw [recvAssociated_eq]; rfl
  | cons x arrivals ih =>
    cases x with
    | datagram source bytes =>
      rw [deliveries]
      split
      · rename_i hs
        have hnext : ∀ payload, a.recvAssociated payload (.datagram source bytes :: arrivals) =
            some ((datagramOf a.b64 (bytes.take MAX_UDP_PAYLOAD)).into payload, arrivals) := by
          intro payload
          rw [recvAssociated_eq, nextDelivery, if_pos hs]
          rfl
        cases hd : datagramOf a.b64 (bytes.take MAX_UDP_PAYLOAD) with
        | ok x => exact .delivers (fun payload => hd ▸ hnext payload) ih
        | err e => exact .fails (by simp) fun payload => hd ▸ hnext payload
        | panicked => exact .fails (by simp) fun payload => hd ▸ hnext payload
      · rename_i hs
        refine ih.congr fun payload => ?_
        rw [recvAssociated_eq, recvAssociated_eq, nextDelivery, if_neg hs]
    | failed error =>
      refine .fails (r := arrivals) (by simp) fun payload => ?_
      rw [recvAssociated_eq]
      rfl
    | closed =>
      refine .fails (r := .closed :: arrivals) (by simp) fun payload => ?_
      rw [recvAssociated_eq]
      rfl

end Association

/-! ## On a framed stream -/

/-- The receiving half of a framed stream: the bytes that have come, and how the stream has ended, if it has. -/
structure Incoming where
  input : List UInt8
  ending : Option Ending

/-- `recv_from` on a framed stream: it waits when the bytes do not suffice and the stream is open. -/
def recvFramedFrom (payload : List UInt8) (s : Incoming) : Option (Outcome Error Received × Incoming) :=
  match s.ending with
  | some e =>
    let r := (recvFramed payload).eval ⟨s.input, e, ⟨[], none⟩⟩
    some (r.1, { s with input := r.2.input })
  | none =>
    ((recvFramed payload).await ⟨s.input, .eof, ⟨[], none⟩⟩).map fun r => (r.1, { s with input := r.2.input })

/-- What a frame delivers. -/
def Frame.delivery (f : Frame) : Delivery :=
  if MAX_UDP_PAYLOAD < f.payload.length then err .socksUdpPayloadTooLarge else ok (f.source, f.payload)

/-- What a stream of frames delivers, and its end. -/
def deliveriesOf (frames : List Frame) (ending : Option Ending) : List Delivery :=
  frames.map Frame.delivery ++ (ending.map fun e => err (fromIo e.error)).toList

theorem into_delivery (buffer : List UInt8) (f : Frame) : f.delivery.into buffer = f.deliver buffer := by
  unfold Frame.delivery Frame.deliver
  split <;> rfl

theorem recvFramedFrom_frame (payload : List UInt8) (f : Frame) (rest : List UInt8) (ending : Option Ending) :
    recvFramedFrom payload ⟨f.bytes ++ rest, ending⟩ = some (f.delivery.into payload, ⟨rest, ending⟩) := by
  cases ending with
  | some e => simp only [recvFramedFrom, eval_recvFramed, into_delivery]
  | none => simp only [recvFramedFrom, await_recvFramed, into_delivery, Option.map_some]

/-- A stream of frames, with nothing or a part of one more behind them, delivers the frames. -/
theorem offers_deliveriesOf {tail : List UInt8} (ht : IsTail tail) (ending : Option Ending) (frames : List Frame) :
    Offers recvFramedFrom ⟨bytesOf frames ++ tail, ending⟩ (deliveriesOf frames ending) := by
  induction frames with
  | nil =>
    show Offers recvFramedFrom ⟨tail, ending⟩ _
    cases ending with
    | some e =>
      refine .fails (r := ⟨[], some e⟩) (by simp) fun payload => ?_
      have he : (recvFramed payload).eval ⟨tail, e, ⟨[], none⟩⟩ = (err (fromIo e.error), ⟨[], e, ⟨[], none⟩⟩) := by
        rcases ht with rfl | ⟨f, hpre, hne⟩
        · exact eval_recvFramed_nil payload
        · exact eval_recvFramed_cut payload f hpre hne
      simp only [recvFramedFrom, he]
      rfl
    | none =>
      refine .waits fun payload => ?_
      have he : (recvFramed payload).await ⟨tail, .eof, ⟨[], none⟩⟩ = none := by
        rcases ht with rfl | ⟨f, hpre, hne⟩
        · exact Prog.await_read_short (by decide)
        · exact await_recvFramed_cut payload f hpre hne
      simp only [recvFramedFrom, he, Option.map_none]
  | cons f frames ih =>
    have hnext := fun payload => recvFramedFrom_frame payload f (bytesOf frames ++ tail) ending
    rw [bytesOf_cons, List.append_assoc, deliveriesOf, List.map_cons, List.cons_append]
    cases hd : f.delivery with
    | ok x => exact .delivers (fun payload => hd ▸ hnext payload) ih
    | err e => exact .fails (by simp) fun payload => hd ▸ hnext payload
    | panicked => exact .fails (by simp) fun payload => hd ▸ hnext payload

end LzcSdk.RemoteSocks
