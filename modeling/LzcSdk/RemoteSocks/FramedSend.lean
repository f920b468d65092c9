import LzcSdk.Lib.Atomic
import LzcSdk.RemoteSocks.Frame

/-!
# Sending on a framed socket

Any number of tasks send on one framed socket. A send checks its payload and its target, waits for the writer lock and
writes one frame (`framedSender`, a service of `Locked`); the kernel takes the bytes in portions of any size.

**The outgoing stream is well formed unless a send is cancelled half way** (`framed_sends_well_formed`): it is frames,
and then at most a part of the frame of the call that holds the lock. A send that is cancelled in the middle of its
frame leaves the part on the stream, and the next send writes behind it (`half_way_cancel_breaks_stream`).
-/

namespace LzcSdk.RemoteSocks

open Outcome ByteIo Locked Lts

/-- The sending calls of a framed socket. -/
def framedSender (peerAddr : Option SocksAddress) : Service SendCall Error Nat where
  prepare
    | .sendTo payload target => sendTo sendFramed payload target
    | .send payload => send sendFramed peerAddr payload
  again _ _ := none

/-! ## The datagram of a call -/

/-- A datagram that fits a frame. -/
structure Datagram where
  payload : List UInt8
  target : SocketAddr
  small : payload.length ≤ MAX_UDP_PAYLOAD

namespace Datagram

/-- The datagram of a payload for a target, if it is not too large and the target is a socket address. -/
def of? (payload : List UInt8) : SocksAddress → Option Datagram
  | .Ip target => if h : payload.length ≤ MAX_UDP_PAYLOAD then some ⟨payload, target, h⟩ else none
  | _ => none

/-- Its frame. -/
def frame (d : Datagram) : Frame := frameOf d.payload d.target (Nat.lt_of_le_of_lt d.small (by decide))

/-- What a receiver gets: the payload cut to the buffer, and the target as source. -/
def received (buffer : List UInt8) (d : Datagram) : Received :=
  ⟨min buffer.length d.payload.length, .Ip (unmapped d.target),
    d.payload.take buffer.length ++ buffer.drop d.payload.length⟩

theorem deliver_frame (d : Datagram) (buffer : List UInt8) : d.frame.deliver buffer = ok (d.received buffer) := by
  have hsmall : ¬ MAX_UDP_PAYLOAD < d.frame.payload.length := Nat.not_lt.2 d.small
  have hcopy : copyPayload buffer d.payload = (min buffer.length d.payload.length,
      d.payload.take buffer.length ++ buffer.drop d.payload.length) := by
    rcases Nat.le_total buffer.length d.payload.length with h | h
    · simp [copyPayload, Nat.min_eq_left h, List.drop_of_length_le h]
    · simp [copyPayload, Nat.min_eq_right h, List.take_of_length_le h]
  rw [Frame.deliver, if_neg hsmall, Frame.received]
  show ok (Received.mk (copyPayload buffer d.payload).1 d.frame.source (copyPayload buffer d.payload).2) = _
  rw [hcopy, frame, source_frameOf]
  rfl

end Datagram

/-- The datagram of a call. -/
def SendCall.datagram? (peerAddr : Option SocksAddress) : SendCall → Option Datagram
  | sendTo payload target => Datagram.of? payload target
  | send payload => peerAddr.bind (Datagram.of? payload)

theorem sendTo_framed (payload : List UInt8) (target : SocksAddress) : sendTo sendFramed payload target =
    match Datagram.of? payload target with
    | some d => ok d.frame.write
    | none => err (if MAX_UDP_PAYLOAD < payload.length then .socksUdpPayloadTooLarge else .invalidSocksUdpAddress) := by
  by_cases h : MAX_UDP_PAYLOAD < payload.length
  · cases target <;> simp [sendTo, Datagram.of?, h, Nat.not_le.2 h]
  · rw [sendTo, if_neg h, if_neg h]
    cases target with
    | Ip target =>
      rw [Datagram.of?, dif_pos (Nat.not_lt.1 h)]
      exact sendFramed_ip target _
    | Domain host port => rfl
    | Custom network address => rfl

/-- A call has a program exactly when it has a datagram, and the program writes its frame. -/
theorem prepare_framedSender (peerAddr : Option SocksAddress) (c : SendCall) :
    match c.datagram? peerAddr with
    | some d => (framedSender peerAddr).prepare c = ok d.frame.write
    | none => ∃ error, (framedSender peerAddr).prepare c = err error := by
  cases c with
  | sendTo payload target =>
    simp only [SendCall.datagram?, framedSender, sendTo_framed]
    cases Datagram.of? payload target <;> simp
  | send payload =>
    simp only [SendCall.datagram?, framedSender, RemoteSocks.send]
    cases peerAddr with
    | none => exact ⟨_, rfl⟩
    | some peer =>
      simp only [okOr_some, ok_bind, Option.bind_some, sendTo_framed]
      cases Datagram.of? payload peer <;> simp

theorem prepare_eq_ok {peerAddr : Option SocksAddress} {c : SendCall} {p : Prog Error Nat} :
    (framedSender peerAddr).prepare c = ok p ↔ ∃ d, c.datagram? peerAddr = some d ∧ p = d.frame.write := by
  have h := prepare_framedSender peerAddr c
  cases hd : c.datagram? peerAddr <;> rw [hd] at h
  · obtain ⟨error, he⟩ := h
    simp [he]
  · simp [h, eq_comm]

/-! ## The outgoing stream -/

section Stream

variable {peerAddr : Option SocksAddress} {w₀ w : Wire} {log : List (Entry SendCall Error Nat)}

/-- The bytes of some frames. -/
def bytesOf (frames : List Frame) : List UInt8 := (frames.map Frame.bytes).flatten

/-- The datagrams of the calls that returned their length. -/
def sentDatagrams (peerAddr : Option SocksAddress) (log : List (Entry SendCall Error Nat)) : List Datagram :=
  log.filterMap fun e => if e.outcome.isOk then e.call.datagram? peerAddr else none

/-- A part of a frame that is the last on a connection that failed. -/
def LastPart (w : Wire) (part : List UInt8) : Prop :=
  w.sink.room = some 0 ∧ ∃ f : Frame, part <+: f.bytes ∧ part ≠ f.bytes

/-- Sends one after another write the frames of those that succeed; after one that fails nothing is written. -/
theorem sent_of_serial (h : Serial (framedSender peerAddr) w₀ log w) :
    ∃ part, w.sink.sent = w₀.sink.sent ++ bytesOf ((sentDatagrams peerAddr log).map Datagram.frame) ++ part ∧
      (part = [] ∨ LastPart w part) := by
  induction h with
  | nil => exact ⟨[], by simp [sentDatagrams, bytesOf], .inl rfl⟩
  | @snoc log w w' t c p o hserial hp he ih =>
    obtain ⟨part, hsent, hpart⟩ := ih
    obtain ⟨d, hd, rfl⟩ := prepare_eq_ok.1 hp
    rw [eval_write_frame] at he
    -- a frame is written behind frames only: after a part the sink is full
    rcases hk : w.sink.writeAll d.frame.bytes with ⟨_ | _, k⟩ <;> rw [hk] at he <;> cases he
    · have hlog : sentDatagrams peerAddr (log ++ [⟨t, c, err (fromIo brokenPipe)⟩]) = sentDatagrams peerAddr log := by
        simp [sentDatagrams, isOk]
      rw [if_neg (by simp), hlog]
      rcases hpart with rfl | ⟨hroom, hf⟩
      · obtain ⟨part, hpre, hne, rfl⟩ := Sink.sent_of_writeAll_failed hk
        exact ⟨part, by rw [hsent, List.append_nil], .inr ⟨rfl, d.frame, hpre, hne⟩⟩
      · rw [Sink.writeAll_full hroom d.frame.bytes_ne_nil] at hk
        cases hk
        exact ⟨part, hsent, .inr ⟨hroom, hf⟩⟩
    · have hlog : sentDatagrams peerAddr (log ++ [⟨t, c, ok d.frame.payload.length⟩]) =
          sentDatagrams peerAddr log ++ [d] := by
        simp [sentDatagrams, isOk, hd]
      rw [if_pos rfl, hlog]
      rcases hpart with rfl | ⟨hroom, -⟩
      · refine ⟨[], ?_, .inl rfl⟩
        rw [Sink.sent_of_writeAll hk, hsent]
        simp [bytesOf]
      · rw [Sink.writeAll_full hroom d.frame.bytes_ne_nil] at hk
        cases hk

/-- A connection that never fails is not failed by sends. -/
theorem room_of_serial (h : Serial (framedSender peerAddr) w₀ log w) (hroom : w₀.sink.room = none) :
    w.sink.room = none := by
  induction h with
  | nil => exact hroom
  | @snoc log w w' t c p o hserial hp he ih =>
    obtain ⟨d, hd, rfl⟩ := prepare_eq_ok.1 hp
    rw [eval_write_frame] at he
    obtain ⟨input, ending, sent, room⟩ := w
    cases ih
    cases he
    rfl

/-- The stream behind `before`: frames, then at most a part of the frame of the call that is writing, or a part that
is the last on a connection that failed. -/
def WellFormedStream (peerAddr : Option SocksAddress) (before : List UInt8) (s : State SendCall Error Nat) : Prop :=
  ∃ frames part, s.wire.sink.sent = before ++ bytesOf frames ++ part ∧
    (part = [] ∨
      (∃ t c moved x d, s.phase t = .running c moved x ∧ c.datagram? peerAddr = some d ∧ part <+: d.frame.bytes) ∨
      LastPart s.wire part)

variable {s₀ s : State SendCall Error Nat}

/-- The bytes of the frame that a call has written, in the middle of its program. -/
theorem written_of_running {d : Datagram} {x : Waiting Error Nat} {w' : Wire} {more : List UInt8}
    (he : x.eval w' = d.frame.write.eval w) (hmore : w'.sink.sent = w.sink.sent ++ more) :
    more <+: d.frame.bytes ∧ (w.sink.room = some 0 → more = []) := by
  have hpre : w'.sink.sent <+: (x.eval w').2.sink.sent := x.sent_prefix_eval w'
  rw [he, eval_write_frame, hmore] at hpre
  constructor
  · -- what the call has written and still writes is what its whole program writes
    obtain ⟨written, hwritten, hall⟩ := Sink.exists_sent_writeAll d.frame.bytes w.sink
    exact ((List.prefix_append_right_inj w.sink.sent).1 (hall ▸ hpre)).trans hwritten
  · intro hfull
    rw [Sink.writeAll_full hfull d.frame.bytes_ne_nil] at hpre
    have hlen : (w.sink.sent ++ more).length ≤ w.sink.sent.length := hpre.length_le
    rw [List.length_append] at hlen
    exact List.eq_nil_of_length_eq_zero (by omega)

/-- Calls that are atomic keep the stream well formed. -/
theorem wellFormed_of_atomic (hd : Disciplined (framedSender peerAddr) s) (h : Atomic (framedSender peerAddr) s₀ s) :
    WellFormedStream peerAddr s₀.wire.sink.sent s := by
  obtain ⟨log, w, -, hserial, hbetween⟩ := h
  obtain ⟨part, hsent, hpart⟩ := sent_of_serial hserial
  match hr : s.runner with
  | none =>
    rw [Between, hr] at hbetween
    exact ⟨_, part, hbetween ▸ hsent, hpart.imp_right fun hp => .inr (hbetween ▸ hp)⟩
  | some (t, c, moved, x) =>
    rw [Between, hr] at hbetween
    obtain ⟨p, hp, he, _, more, -, -, hmore, hroom, -⟩ := hbetween
    obtain ⟨d, hcall, rfl⟩ := prepare_eq_ok.1 hp
    obtain ⟨hwritten, hnothing⟩ := written_of_running he hmore
    rcases hpart with rfl | ⟨hfull, hf⟩
    · exact ⟨_, more, by rw [hmore, hsent, List.append_nil], .inr (.inl ⟨t, c, moved, x, d,
        (runner_eq_some hd).1 hr, hcall, hwritten⟩)⟩
    · -- the connection had failed before this call, which has written nothing
      obtain rfl := hnothing hfull
      refine ⟨_, part, by rw [hmore, List.append_nil, hsent], .inr (.inr ⟨?_, hf⟩)⟩
      rw [hroom, hfull, Option.map_some, Nat.zero_sub]

/-- **The outgoing stream is well formed unless a send is cancelled half way.** In every state it is frames and at most
a part of the frame of the call that is writing, or a part that is the last on a connection that failed. After the
cancellation of a call that held the lock, or while nobody did, it is frames, and such a last part where the connection
has failed; and what is written later starts with a frame. -/
theorem framed_sends_well_formed (peerAddr : Option SocksAddress) (room : Option Nat)
    (h : Reachable (step (framedSender peerAddr)) neverHalfWay (init ⟨[], .eof, ⟨[], room⟩⟩) s) :
    WellFormedStream peerAddr [] s ∧
    ∀ t s', step (framedSender peerAddr) s (.cancel t) = some s' → neverHalfWay s (.cancel t) →
      ((s.phase t).isRunning ∨ ∀ u, ¬ (s.phase u).isRunning) →
      (∃ frames part, s'.wire.sink.sent = bytesOf frames ++ part ∧ (part = [] ∨ LastPart s'.wire part)) ∧
      ∀ s'', Reachable (step (framedSender peerAddr)) neverHalfWay s' s'' →
        WellFormedStream peerAddr s'.wire.sink.sent s'' := by
  have hinit : Disciplined (framedSender peerAddr) (init ⟨[], .eof, ⟨[], room⟩⟩) := disciplined_init _
  have hwf : ∀ {s}, Reachable (step (framedSender peerAddr)) neverHalfWay (init ⟨[], .eof, ⟨[], room⟩⟩) s →
      WellFormedStream peerAddr [] s := fun h =>
    wellFormed_of_atomic (disciplined_of_reachable h) (atomic_of_reachable hinit rfl h)
  refine ⟨hwf h, fun t s' hs hg hrun => ?_⟩
  have hd := disciplined_of_reachable h
  have hd' := disciplined_step hd (trans_of_step hs)
  have hquiet := quiet_of_cancel hd (trans_of_step hs) hrun
  refine ⟨?_, fun s'' h'' => wellFormed_of_atomic (disciplined_of_reachable ((h.snoc hg hs).trans h''))
    (atomic_of_reachable hd' ((runner_eq_none hd').2 hquiet) h'')⟩
  obtain ⟨frames, part, hsent, hpart⟩ := hwf (h.snoc hg hs)
  refine ⟨frames, part, hsent, ?_⟩
  rcases hpart with rfl | ⟨u, c, moved, x, -, hu, -⟩ | hlast
  · exact .inl rfl
  · exact absurd (by rw [hu]; trivial) (hquiet u)
  · exact .inr hlast

/-- Two tasks send to one address; when the first has written its frame, the second has written two bytes. -/
theorem framed_sends_well_formed_two :
    let hello := SendCall.sendTo [0x68, 0x69] (.Ip (.v4 (Ipv4Addr.new 8 8 8 8) 53))
    let actions : List (Action SendCall) := [.call 0 hello, .enter 0, .call 1 hello, .enter 1, .grant 0,
      .move 0 (.write 20), .move 0 (.write 2), .grant 1, .move 1 (.write 2)]
    ∃ s, run (step (framedSender none)) (init ⟨[], .eof, ⟨[], none⟩⟩) actions = some s ∧
      WellFormedStream none [] s := by
  intro hello actions
  have hrun : (run (step (framedSender none)) (init ⟨[], .eof, ⟨[], none⟩⟩) actions).isSome := rfl
  refine ⟨_, (Option.some_get hrun).symm, (framed_sends_well_formed none none
    (Reachable.of_run (fun s a ha => ?_) (Option.some_get hrun).symm)).1⟩
  rintro t c moved x rfl
  simp [actions] at ha

theorem bytesOf_cons (f : Frame) (fs : List Frame) : bytesOf (f :: fs) = f.bytes ++ bytesOf fs := rfl

/-- What is left of the bytes of some frames after a receiver took one are the bytes of the others. -/
theorem bytesOf_of_recv {f : Frame} {fs : List Frame} {bs : List UInt8} {r : Outcome Error Received × Wire}
    (hbs : bytesOf (f :: fs) = bs) (hr : (recvFramed []).eval ⟨bs, .eof, ⟨[], none⟩⟩ = r) : bytesOf fs = r.2.input := by
  rw [← hr, ← hbs, bytesOf_cons, eval_recvFramed]

/-- Two tasks send to one address, and the first is cancelled after one byte of its frame. -/
def cancelledAfterOneByte : List (Action SendCall) :=
  let hello := SendCall.sendTo [0x68, 0x69] (.Ip (.v4 (Ipv4Addr.new 8 8 8 8) 53))
  [.call 0 hello, .enter 0, .call 1 hello, .enter 1, .grant 0, .move 0 (.write 1), .cancel 0,
    .grant 1, .move 1 (.write 20), .move 1 (.write 2)]

/-- The other task writes its frame behind that byte: the stream is not frames any more. -/
theorem half_way_cancel_breaks_stream :
    ∃ s, Reachable (step (framedSender none)) anyStep (init ⟨[], .eof, ⟨[], none⟩⟩) s ∧
      ¬ WellFormedStream none [] s := by
  have hrun : (run (step (framedSender none)) (init ⟨[], .eof, ⟨[], none⟩⟩) cancelledAfterOneByte).isSome := rfl
  have hreach : Reachable (step (framedSender none)) anyStep (init ⟨[], .eof, ⟨[], none⟩⟩) (Option.get _ hrun) :=
    .of_run (fun _ _ _ => trivial) (Option.some_get hrun).symm
  refine ⟨_, hreach, ?_⟩
  rintro ⟨frames, part, hsent, rfl | ⟨t, c, moved, x, -, ht, -⟩ | ⟨hroom, -⟩⟩
  · have hbytes : bytesOf frames =
        [0, 0, 2, 0, 0, 0, 0, 0, 0, 0, 0, 0, 0, 0xff, 0xff, 8, 8, 8, 8, 0, 53, 0x68, 0x69] := by
      rw [List.nil_append, List.append_nil] at hsent
      exact hsent.symm
    -- the first twenty bytes read as an empty datagram, and three bytes are no frame
    obtain ⟨f, fs, rfl⟩ : ∃ f fs, frames = f :: fs :=
      List.exists_cons_of_ne_nil fun hnil => by rw [hnil] at hbytes; cases hbytes
    have hrest : bytesOf fs = [53, 0x68, 0x69] := bytesOf_of_recv hbytes rfl
    obtain ⟨g, gs, rfl⟩ : ∃ g gs, fs = g :: gs :=
      List.exists_cons_of_ne_nil fun hnil => by rw [hnil] at hrest; cases hrest
    have hlen := congrArg List.length hrest
    rw [bytesOf_cons, List.length_append, g.length_bytes] at hlen
    simp only [List.length_cons, List.length_nil] at hlen
    omega
  · have hnone := (runner_eq_some (disciplined_of_reachable hreach)).2 ht
    cases hnone
  · cases hroom

end Stream

end LzcSdk.RemoteSocks
