import LzcSdk.RemoteSocks.FramedSend

/-!
# Receiving on a framed socket

Any number of tasks receive on one framed socket: `recv_from` takes one datagram, and `recv` takes datagrams until one
comes from the fixed peer, asking for the reader lock anew for each (`framedReceiver`, a service of `Locked`). The
portions in which the bytes arrive are the moves of the machine.

**Receives stay at frame boundaries unless one is cancelled half way** (`framed_receives_aligned`): what calls return
are datagrams of the stream, in its order, and while no call is in a frame the rest of the stream is frames. A receive
that is cancelled in the middle of a frame leaves the rest of this frame on the stream, and the next receive takes it
for a header (`half_way_cancel_misreads_stream`).
-/

namespace LzcSdk.RemoteSocks

open Outcome ByteIo Locked Lts

/-- The receiving calls of a framed socket. -/
def framedReceiver (peerAddr : Option SocksAddress) : Service RecvCall Error Received where
  prepare
    | .recvFrom payload => ok (recvFramed payload)
    | .recv payload => do
      let _ ← okOr .socksUdpNotConnected peerAddr
      ok (recvFramed payload)
  again := RecvCall.again peerAddr

section Receives

variable {peerAddr : Option SocksAddress} {frames : List Frame} {e : Ending} {k : Sink} {w : Wire}
  {log : List (Entry RecvCall Error Received)} {s : State RecvCall Error Received}

theorem prepare_framedReceiver {c : RecvCall} {p : Prog Error Received}
    (h : (framedReceiver peerAddr).prepare c = ok p) : p = recvFramed c.buffer := by
  cases c with
  | recvFrom payload => cases h; rfl
  | recv payload =>
    obtain ⟨_, -, hp⟩ := bind_eq_ok.1 h
    cases hp
    rfl

/-- The datagrams that calls returned, in the order in which they did. -/
def returned (peerAddr : Option SocksAddress) (log : List (Entry RecvCall Error Received)) : List Received :=
  log.filterMap fun e =>
    match e.outcome with
    | ok r => if e.call.again peerAddr r = none then some r else none
    | _ => none

/-- A call returned the datagram of a frame: its source, and its payload cut to the buffer. -/
def Returns (r : Received) (f : Frame) : Prop :=
  r.source = f.source ∧ r.copied = min r.buffer.length f.payload.length ∧
    r.buffer.take r.copied = f.payload.take r.copied

theorem returns_of_deliver {f : Frame} {buffer : List UInt8} {r : Received} (h : f.deliver buffer = ok r) :
    Returns r f := by
  rw [Frame.deliver] at h
  split at h
  · cases h
  · cases h
    have hlen : (copyPayload buffer f.payload).2.length = buffer.length := by
      simp only [copyPayload, List.length_append, List.length_take, List.length_drop]
      omega
    refine ⟨rfl, ?_, ?_⟩
    · show min buffer.length f.payload.length = min (copyPayload buffer f.payload).2.length f.payload.length
      rw [hlen]
    · exact List.take_left' (by simp [Frame.received, copyPayload])

/-- Receives one after another take frames from the front of the stream, and return their datagrams in order. -/
theorem received_of_serial (h : Serial (framedReceiver peerAddr) ⟨bytesOf frames, e, k⟩ log w) :
    ∃ taken left, frames = taken ++ left ∧ w = ⟨bytesOf left, e, k⟩ ∧
      ∃ fs, fs.Sublist taken ∧ List.Forall₂ Returns (returned peerAddr log) fs := by
  induction h with
  | nil => exact ⟨[], frames, rfl, rfl, [], List.Sublist.refl _, .nil⟩
  | @snoc log w w' t c p o hserial hp he ih =>
    obtain ⟨taken, left, rfl, rfl, fs, hsub, hall⟩ := ih
    cases prepare_framedReceiver hp
    cases left with
    | nil =>
      rw [show bytesOf [] = [] from rfl, eval_recvFramed_nil] at he
      cases he
      exact ⟨taken, [], rfl, rfl, fs, hsub, by simpa [returned] using hall⟩
    | cons f left =>
      rw [bytesOf_cons, eval_recvFramed] at he
      cases he
      refine ⟨taken ++ [f], left, by simp, rfl, ?_⟩
      match hd : f.deliver c.buffer with
      | ok r =>
        by_cases hagain : c.again peerAddr r = none
        · refine ⟨fs ++ [f], hsub.append (List.Sublist.refl _), ?_⟩
          have hlog : returned peerAddr (log ++ [⟨t, c, ok r⟩]) = returned peerAddr log ++ [r] := by
            simp [returned, hagain]
          rw [hlog]
          exact List.rel_append hall (.cons (returns_of_deliver hd) .nil)
        · exact ⟨fs, hsub.trans (List.sublist_append_left _ _), by simpa [returned, hagain] using hall⟩
      | err error => exact ⟨fs, hsub.trans (List.sublist_append_left _ _), by simpa [returned] using hall⟩
      | panicked => exact ⟨fs, hsub.trans (List.sublist_append_left _ _), by simpa [returned] using hall⟩

/-- What the calls returned are datagrams of these frames, in the order of the stream, and while no call is in a frame
the rest of the stream is frames. -/
structure Aligned (peerAddr : Option SocksAddress) (frames : List Frame) (s : State RecvCall Error Received) :
    Prop where
  inOrder : ∃ fs, fs.Sublist frames ∧ List.Forall₂ Returns (returned peerAddr s.log) fs
  returned : ∀ t c r, s.phase t = .finished c (ok r) → r ∈ returned peerAddr s.log
  boundary : (∀ t, ¬ (s.phase t).isRunning) → ∃ left, s.wire.input = bytesOf left ∧ left <:+ frames

theorem exists_of_forall₂ : ∀ {rs : List Received} {fs : List Frame}, List.Forall₂ Returns rs fs → ∀ r ∈ rs,
    ∃ f ∈ fs, Returns r f
  | _, _, .cons hr _, _, .head _ => ⟨_, .head _, hr⟩
  | _, _, .cons _ hall, r, .tail _ hmem =>
    let ⟨f, hf, hr⟩ := exists_of_forall₂ hall r hmem
    ⟨f, .tail _ hf, hr⟩

/-- A call that returned `Ok` returned the datagram of one of the frames. -/
theorem Aligned.exists_frame (h : Aligned peerAddr frames s) {t : Nat} {c : RecvCall} {r : Received}
    (ht : s.phase t = .finished c (ok r)) : ∃ f ∈ frames, Returns r f := by
  obtain ⟨fs, hsub, hall⟩ := h.inOrder
  obtain ⟨f, hf, hr⟩ := exists_of_forall₂ hall r (h.returned t c r ht)
  exact ⟨f, hsub.subset hf, hr⟩

theorem returned_of_reachable {guard : State RecvCall Error Received → Action RecvCall → Prop} {w₀ : Wire}
    (h : Reachable (step (framedReceiver peerAddr)) guard (init w₀) s) {t : Nat} {c : RecvCall} {r : Received}
    (ht : s.phase t = .finished c (ok r)) : r ∈ returned peerAddr s.log := by
  rcases answered_of_reachable h ht with ⟨hlog, hafter⟩ | ⟨href, hr⟩
  · refine List.mem_filterMap.2 ⟨_, hlog, if_pos ?_⟩
    simp only [Service.after] at hafter
    split at hafter
    · cases hafter
    · assumption
  · obtain ⟨p, hp, hpan⟩ := bind_eq_ok.1 hr.symm
    cases hpan

/-- **Receives stay at frame boundaries unless one is cancelled half way.** -/
theorem framed_receives_aligned (peerAddr : Option SocksAddress) (frames : List Frame) (e : Ending) (k : Sink)
    (h : Reachable (step (framedReceiver peerAddr)) neverHalfWay (init ⟨bytesOf frames, e, k⟩) s) :
    Aligned peerAddr frames s := by
  obtain ⟨log, w, hlog, hserial, hbetween⟩ := atomic_of_reachable (disciplined_init _) rfl h
  have hlog : s.log = log := hlog
  obtain ⟨taken, left, rfl, rfl, fs, hsub, hall⟩ := received_of_serial hserial
  refine ⟨⟨fs, hsub.trans (List.sublist_append_left _ _), hlog ▸ hall⟩, fun t c r ht => returned_of_reachable h ht,
    fun hquiet => ⟨left, ?_, List.suffix_append _ _⟩⟩
  rw [Between, (runner_eq_none (disciplined_of_reachable h)).2 hquiet] at hbetween
  rw [hbetween]

end Receives

/-- A frame of two bytes from `8.8.8.8:53`. -/
def helloFrame : Frame := frameOf [0x68, 0x69] (.v4 (Ipv4Addr.new 8 8 8 8) 53) (by decide)

/-- Two tasks receive, one of them from the fixed peer only; one is cancelled while it waits for the lock. -/
theorem framed_receives_aligned_two :
    let actions : List (Action RecvCall) := [.call 0 (.recv [0, 0, 0]), .enter 0, .call 1 (.recvFrom [0]), .enter 1,
      .grant 0, .move 0 (.read 7), .move 0 (.read 13), .move 0 (.read 2), .enter 0, .grant 1, .move 1 (.read 20),
      .move 1 (.read 2)]
    ∃ s, run (step (framedReceiver (some (.Domain "example.com" 53))))
      (init ⟨bytesOf [helloFrame, helloFrame], .eof, ⟨[], none⟩⟩) actions = some s ∧
      Aligned (some (.Domain "example.com" 53)) [helloFrame, helloFrame] s := by
  intro actions
  have hrun : (run (step (framedReceiver (some (.Domain "example.com" 53))))
    (init ⟨bytesOf [helloFrame, helloFrame], .eof, ⟨[], none⟩⟩) actions).isSome := by decide +kernel
  refine ⟨_, (Option.some_get hrun).symm, framed_receives_aligned _ _ .eof ⟨[], none⟩
    (Reachable.of_run (fun s a ha => ?_) (Option.some_get hrun).symm)⟩
  rintro t c moved x rfl
  simp [actions] at ha

/-- Two tasks receive, and the first is cancelled after two bytes of the header. -/
def cancelledAfterTwoBytes : List (Action RecvCall) :=
  [.call 0 (.recvFrom [0, 0]), .enter 0, .call 1 (.recvFrom [0, 0]), .enter 1, .grant 0, .move 0 (.read 2), .cancel 0,
    .grant 1, .move 1 (.read 20)]

/-- The other task returns an empty datagram from an address that sent nothing. -/
theorem half_way_cancel_misreads_stream :
    ∃ s, Reachable (step (framedReceiver none)) anyStep (init ⟨bytesOf [helloFrame], .eof, ⟨[], none⟩⟩) s ∧
      (∃ r, s.phase 1 = .finished (.recvFrom [0, 0]) (ok r) ∧ r.copied = 0 ∧ r.source ≠ helloFrame.source) ∧
      ¬ Aligned none [helloFrame] s := by
  have hrun : (run (step (framedReceiver none)) (init ⟨bytesOf [helloFrame], .eof, ⟨[], none⟩⟩)
    cancelledAfterTwoBytes).isSome := by decide +kernel
  have hreach : Reachable (step (framedReceiver none)) anyStep (init ⟨bytesOf [helloFrame], .eof, ⟨[], none⟩⟩)
      (Option.get _ hrun) := .of_run (fun _ _ _ => trivial) (Option.some_get hrun).symm
  obtain ⟨r, hr, hcopied, hsource⟩ : ∃ r, (Option.get _ hrun).phase 1 = .finished (.recvFrom [0, 0]) (ok r) ∧
      r.copied = 0 ∧ r.source ≠ helloFrame.source := ⟨_, rfl, rfl, by decide +kernel⟩
  refine ⟨_, hreach, ⟨r, hr, hcopied, hsource⟩, fun hal => ?_⟩
  obtain ⟨f, hf, hreturns⟩ := hal.exists_frame hr
  cases List.mem_singleton.1 hf
  exact hsource hreturns.1

end LzcSdk.RemoteSocks
