import LzcSdk.RemoteSocks.FramedSend

/-!
# Datagrams through the framed transport

The sends of any number of tasks make one byte stream, and a receiver at its other end reads it one datagram at a time,
into buffers of any size and cut into segments in any way (`recvMany`).

**The transport is transparent** (`framed_transport_transparent`): when the sends have run to completion, the receiver
gets the datagrams of the sends that succeeded, in the order in which the writer lock was granted, and then only
errors. Neither a datagram that is too large to return nor a short buffer shifts the frames behind it.
-/

namespace LzcSdk.RemoteSocks

open Outcome ByteIo Locked Lts

/-! ## Receiving one datagram after another -/

/-- One receive for each buffer. -/
def recvMany : List (List UInt8) → Socket → List (Outcome Error Received) × Socket
  | [], s => ([], s)
  | buffer :: buffers, s =>
    let r := (recvFramed buffer).run s
    let rs := recvMany buffers r.2
    (r.1 :: rs.1, rs.2)

/-- One receive on a stream with a frame at its front. -/
theorem run_recvFramed (f : Frame) {s : Socket} {rest : List UInt8} (buffer : List UInt8)
    (hin : s.segments.flatten = f.bytes ++ rest) :
    ((recvFramed buffer).run s).1 = f.deliver buffer ∧
      ((recvFramed buffer).run s).2.flat = ⟨rest, s.ending, s.sink⟩ := by
  have he : (recvFramed buffer).eval s.flat = (f.deliver buffer, ⟨rest, s.ending, s.sink⟩) := by
    rw [Socket.flat, hin, eval_recvFramed]
  exact ⟨(Prog.run_fst _ s).trans (congrArg Prod.fst he), (Prog.run_snd _ s).trans (congrArg Prod.snd he)⟩

/-- The end of a stream of frames: nothing, or a part of one more. -/
def IsTail (tail : List UInt8) : Prop := tail = [] ∨ ∃ f : Frame, tail <+: f.bytes ∧ tail ≠ f.bytes

/-- One receive at the end of the stream. -/
theorem run_recvFramed_tail {s : Socket} (buffer : List UInt8) (ht : IsTail s.segments.flatten) :
    ((recvFramed buffer).run s).1 = err (fromIo s.ending.error) ∧
      ((recvFramed buffer).run s).2.flat = ⟨[], s.ending, s.sink⟩ := by
  have he : (recvFramed buffer).eval s.flat = (err (fromIo s.ending.error), ⟨[], s.ending, s.sink⟩) := by
    rcases ht with hnil | ⟨f, hpre, hne⟩
    · rw [Socket.flat, hnil, eval_recvFramed_nil]
    · exact eval_recvFramed_cut buffer f hpre hne
  exact ⟨(Prog.run_fst _ s).trans (congrArg Prod.fst he), (Prog.run_snd _ s).trans (congrArg Prod.snd he)⟩

/-- A stream of frames is received frame by frame, and then every receive fails. -/
theorem recvMany_frames : ∀ (buffers : List (List UInt8)) (frames : List Frame) {tail : List UInt8} {s : Socket},
    s.segments.flatten = bytesOf frames ++ tail → IsTail tail →
    (recvMany buffers s).1 = List.zipWith Frame.deliver buffers frames ++
      List.replicate (buffers.length - frames.length) (err (fromIo s.ending.error))
  | [], frames, _, s, _, _ => by simp [recvMany]
  | buffer :: buffers, [], tail, s, hin, ht => by
    obtain ⟨hfst, hsnd⟩ := run_recvFramed_tail buffer (s := s) (by rw [hin]; exact ht)
    have ih := recvMany_frames buffers [] (s := ((recvFramed buffer).run s).2) (congrArg Wire.input hsnd) (.inl rfl)
    have hend : ((recvFramed buffer).run s).2.ending = s.ending := congrArg Wire.ending hsnd
    rw [hend] at ih
    simp only [recvMany, hfst, ih]
    simp [List.replicate_succ]
  | buffer :: buffers, f :: fs, tail, s, hin, ht => by
    obtain ⟨hfst, hsnd⟩ := run_recvFramed f buffer (hin.trans (List.append_assoc f.bytes (bytesOf fs) tail))
    have ih := recvMany_frames buffers fs (s := ((recvFramed buffer).run s).2) (congrArg Wire.input hsnd) ht
    have hend : ((recvFramed buffer).run s).2.ending = s.ending := congrArg Wire.ending hsnd
    rw [hend] at ih
    simp only [recvMany, hfst, ih]
    simp

/-! ## From the senders to the receiver -/

section Transparent

variable {peerAddr : Option SocksAddress} {w₀ : Wire} {s : State SendCall Error Nat}

/-- The datagrams of the sends that returned `Ok`, in the order in which the writer lock was granted. -/
def successfulSends (peerAddr : Option SocksAddress) (s : State SendCall Error Nat) : List Datagram :=
  s.granted.filterMap fun (t, c) =>
    match s.phase t with
    | .finished _ (ok _) => c.datagram? peerAddr
    | _ => none

/-- When every call that asked for the lock has returned, nobody holds the connection. -/
theorem runner_of_queue (hq : s.lock.queue = []) : s.runner = none := by
  rw [State.runner, FairLock.holder, hq]
  rfl

section Completed

variable {room : Option Nat} (h : Reachable (step (framedSender peerAddr)) neverCancel (init ⟨[], .eof, ⟨[], room⟩⟩) s)
  (hq : s.lock.queue = [])

include h hq

/-- The calls that got the lock are those whose program ended. -/
theorem granted_of_completed : s.granted = s.log.map Entry.caller := by
  have hin := inOrder_of_reachable h
  rw [InOrder, runner_of_queue hq] at hin
  exact hin.trans (List.append_nil _)

/-- Their programs ran one after another. -/
theorem serial_of_completed : Serial (framedSender peerAddr) ⟨[], .eof, ⟨[], room⟩⟩ s.log s.wire := by
  have hatomic := atomic_of_reachable (disciplined_init _) rfl (h.mono fun s a hg t c moved x ha => absurd ha (hg t))
  obtain ⟨log, w, hlog, hserial, hbetween⟩ := hatomic
  rw [Between, runner_of_queue hq] at hbetween
  rw [hlog, hbetween]
  exact hserial

theorem successfulSends_eq : successfulSends peerAddr s = sentDatagrams peerAddr s.log := by
  have honce := onlyOnce_of_reachable (fun _ _ => rfl) h
  rw [successfulSends, granted_of_completed h hq, List.filterMap_map, sentDatagrams]
  refine List.filterMap_congr fun e he => ?_
  simp only [Function.comp_apply, Entry.caller, honce.answer e he]
  cases e.outcome <;> rfl

/-- The stream that completed sends have made. -/
theorem sent_of_completed :
    ∃ part, s.wire.sink.sent = bytesOf ((successfulSends peerAddr s).map Datagram.frame) ++ part ∧ IsTail part ∧
      (room = none → part = []) := by
  have hserial := serial_of_completed h hq
  obtain ⟨part, hsent, hpart⟩ := sent_of_serial hserial
  rw [successfulSends_eq h hq]
  refine ⟨part, hsent, hpart.imp_right And.right, fun hroom => ?_⟩
  rcases hpart with hnil | ⟨hfull, -⟩
  · exact hnil
  · rw [room_of_serial hserial hroom] at hfull
    cases hfull

/-- A send with a datagram had the lock, and returned its length or the error of the connection. -/
theorem answer_of_datagram {t : Nat} {c : SendCall} {o : Outcome Error Nat} {d : Datagram}
    (ht : s.phase t = .finished c o) (hd : c.datagram? peerAddr = some d) :
    (t, c) ∈ s.granted ∧ (o = ok d.payload.length ∨ o = err (fromIo brokenPipe)) := by
  have hp := prepare_eq_ok.2 ⟨d, hd, rfl⟩
  rcases answered_of_reachable h ht with ⟨hlog, -⟩ | ⟨href, -⟩
  · obtain ⟨p, w, hp', ho⟩ := (serial_of_completed h hq).exists_eval hlog
    cases hp.symm.trans hp'
    rw [eval_write_frame] at ho
    refine ⟨granted_of_completed h hq ▸ List.mem_map_of_mem (f := Entry.caller) hlog, ?_⟩
    split at ho
    · exact .inl ho
    · exact .inr ho
  · exact absurd hp (href _)

/-- A send without a datagram returned an error and never had the lock. -/
theorem answer_of_no_datagram {t : Nat} {c : SendCall} {o : Outcome Error Nat} (ht : s.phase t = .finished c o)
    (hd : c.datagram? peerAddr = none) : t ∉ s.granted.map Prod.fst ∧ ∃ error, o = err error := by
  have hp := prepare_framedSender peerAddr c
  rw [hd] at hp
  obtain ⟨error, hp⟩ := hp
  have hnot : ∀ e ∈ s.log, e.call ≠ c := by
    rintro e he rfl
    obtain ⟨p, w, hp', -⟩ := (serial_of_completed h hq).exists_eval he
    cases hp.symm.trans hp'
  constructor
  · rw [granted_of_completed h hq, List.map_map, List.mem_map]
    rintro ⟨e, he, rfl⟩
    have hphase := (onlyOnce_of_reachable (fun _ _ => rfl) h).answer e he
    cases hphase.symm.trans ht
    exact hnot e he rfl
  · rcases answered_of_reachable h ht with ⟨hlog, -⟩ | ⟨-, rfl⟩
    · exact absurd rfl (hnot _ hlog)
    · exact ⟨error, by rw [hp]; rfl⟩

end Completed

end Transparent

/-- **The framed transport is transparent.** Once the sends have run to completion (1): from their bytes, cut into
segments in any way, the receiver gets one datagram for each send that returned `Ok`, in the order in which the writer
lock was granted, and then only errors (a). A send of a datagram had the lock once; it returns the length of its
payload, unless the connection fails (b). A send with a payload that is too large, or to an address that is not a
socket address, fails without the lock (c), and the stream holds nothing but the frames of the others (d). On any
stream a frame is taken as a whole, also when its datagram is too large to return (2). -/
theorem framed_transport_transparent (peerAddr : Option SocksAddress) (room : Option Nat) :
    (∀ s, Reachable (step (framedSender peerAddr)) neverCancel (init ⟨[], .eof, ⟨[], room⟩⟩) s → s.lock.queue = [] →
      (∀ segments ending sink buffers, segments.flatten = s.wire.sink.sent →
        (recvMany buffers ⟨segments, ending, sink⟩).1 =
          List.zipWith (fun buffer d => ok (Datagram.received buffer d)) buffers (successfulSends peerAddr s) ++
            List.replicate (buffers.length - (successfulSends peerAddr s).length)
              (err (.remoteSocksIo ending.error))) ∧
      ((s.granted.map Prod.fst).Nodup ∧ ∀ t c o d, s.phase t = .finished c o → c.datagram? peerAddr = some d →
        (t, c) ∈ s.granted ∧ (o = ok d.payload.length ∨ o = err (fromIo brokenPipe))) ∧
      (∀ t c o, s.phase t = .finished c o → c.datagram? peerAddr = none →
        t ∉ s.granted.map Prod.fst ∧ ∃ error, o = err error) ∧
      ∃ part, s.wire.sink.sent = bytesOf ((successfulSends peerAddr s).map Datagram.frame) ++ part ∧ IsTail part ∧
        (room = none → part = [])) ∧
    (∀ (f : Frame) rest segments ending sink buffer, segments.flatten = f.bytes ++ rest →
      (MAX_UDP_PAYLOAD < f.payload.length →
        ((recvFramed buffer).run ⟨segments, ending, sink⟩).1 = err .socksUdpPayloadTooLarge) ∧
      ((recvFramed buffer).run ⟨segments, ending, sink⟩).2.flat = ⟨rest, ending, sink⟩) := by
  refine ⟨fun s h hq => ⟨?_, ⟨?_, fun t c o d => answer_of_datagram h hq⟩, fun t c o => answer_of_no_datagram h hq,
    sent_of_completed h hq⟩, ?_⟩
  · intro segments ending sink buffers hseg
    obtain ⟨part, hsent, htail, -⟩ := sent_of_completed h hq
    rw [recvMany_frames buffers _ (hseg.trans hsent) htail, List.zipWith_map_right, List.length_map]
    simp only [Datagram.deliver_frame]
    rfl
  · rw [granted_of_completed h hq, List.map_map]
    exact (onlyOnce_of_reachable (fun _ _ => rfl) h).nodup
  · intro f rest segments ending sink buffer hseg
    obtain ⟨hfst, hsnd⟩ := run_recvFramed f (s := ⟨segments, ending, sink⟩) buffer hseg
    exact ⟨fun hlarge => hfst.trans (if_pos hlarge), hsnd⟩

/-- Two tasks send at a time, to an IPv4-mapped address and to a custom address; the receiver has room for one byte. -/
theorem framed_transport_transparent_short :
    let hello := SendCall.sendTo [0x68, 0x69] (.Ip (.v6 (Ipv4Addr.new 8 8 8 8).toIpv6Mapped 53 7 9))
    let actions : List (Action SendCall) := [.call 0 (.sendTo [1] (.Custom "unix" "/tmp/socket")), .call 1 hello,
      .enter 1, .grant 1, .move 1 (.write 3), .enter 0, .move 1 (.write 17), .move 1 (.write 2)]
    ∃ s, run (step (framedSender none)) (init ⟨[], .eof, ⟨[], none⟩⟩) actions = some s ∧
      (recvMany [[0], [0, 0]] ⟨[s.wire.sink.sent.take 5, s.wire.sink.sent.drop 5], .eof, ⟨[], none⟩⟩).1 =
        [ok ⟨1, .Ip (.v4 (Ipv4Addr.new 8 8 8 8) 53), [0x68]⟩, err (.remoteSocksIo .unexpectedEof)] := by
  intro hello actions
  have hrun : (run (step (framedSender none)) (init ⟨[], .eof, ⟨[], none⟩⟩) actions).isSome := rfl
  have hreach : Reachable (step (framedSender none)) neverCancel (init ⟨[], .eof, ⟨[], none⟩⟩) (Option.get _ hrun) := by
    refine .of_run (fun s a ha t => ?_) (Option.some_get hrun).symm
    rintro rfl
    simp [actions] at ha
  exact ⟨_, (Option.some_get hrun).symm,
    ((framed_transport_transparent none none).1 _ hreach rfl).1 _ .eof _ [[0], [0, 0]] (by simp)⟩

end LzcSdk.RemoteSocks
