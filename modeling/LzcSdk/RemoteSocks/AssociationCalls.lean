import LzcSdk.RemoteSocks.AssociatedRecv

/-!
# The calls of an association

A step of the machine moves one call, which has not ended (`phase_of_trans`), and takes a datagram off the UDP socket
only for the receive that has the mutex (`arrived_of_trans`). What a call holds between two steps is what it was called
with (`Calls`): the caller's buffer and a full packet buffer, or the frame of the payload and target.
-/

namespace LzcSdk.RemoteSocks.Association

open Outcome ByteIo Lts

/-- The call that an action moves. -/
def Action.task : Action → Option Nat
  | .call t _ => some t
  | .enter t => some t
  | .grant t => some t
  | .datagram t => some t
  | .changed t => some t
  | .socketError t _ => some t
  | .transmit t _ => some t
  | .cancel t => some t
  | _ => none

/-- The call returned. -/
def Phase.isFinished : Phase → Prop
  | finished _ _ => True
  | _ => False

section Frame

variable {a : Association} {s s' : State} {act : Action} {t : Nat}

/-- A step changes the phase of one call, which has not ended. -/
theorem phase_of_trans (h : a.Trans s act s') :
    s'.phase = s.phase ∧ act.task = none ∨
      ∃ u p, act.task = some u ∧ s'.phase = Function.update s.phase u p ∧ ¬ (s.phase u).isFinished := by
  cases h with
  | call hph | enter hph | refuse hph | closed hph | flag hph | select hph | relayed hph | foreignClosed hph
  | foreign hph | changed hph | socketError hph | transmit hph | leaveQueue hph | abandon hph | abandonSend hph =>
    exact .inr ⟨_, _, rfl, rfl, by rw [hph]; exact id⟩
  | arrive | controlData | controlEnd | report => exact .inl ⟨rfl, rfl⟩

theorem phase_of_ne (h : a.Trans s act s') (ht : act.task ≠ some t) : s'.phase t = s.phase t := by
  rcases phase_of_trans h with ⟨hph, -⟩ | ⟨u, p, hu, hph, -⟩
  · rw [hph]
  · rw [hph, Function.update_of_ne]
    rintro rfl
    exact ht hu

/-- An answer is final. -/
theorem phase_of_finished {c : Call} {o : Outcome Error Answer} (h : a.Trans s act s')
    (ht : s.phase t = .finished c o) : s'.phase t = .finished c o := by
  rw [← ht]
  rcases phase_of_trans h with ⟨hph, -⟩ | ⟨u, p, -, hph, hn⟩
  · rw [hph]
  · rw [hph, Function.update_of_ne]
    rintro rfl
    rw [ht] at hn
    exact hn trivial

/-- Datagrams arrive at the end and leave at the front, and they leave only for the receive that has the mutex. -/
theorem arrived_of_trans (h : a.Trans s act s') :
    (∃ more, s'.arrived = s.arrived ++ more) ∨
      ∃ u d, act = .datagram u ∧ (s.phase u).isSelecting ∧ s.arrived = d :: s'.arrived := by
  cases h with
  | relayed hph harr | foreignClosed hph harr | foreign hph harr =>
    exact .inr ⟨_, _, rfl, by rw [hph]; trivial, harr⟩
  | arrive => exact .inl ⟨_, rfl⟩
  | call | enter | refuse | closed | flag | select | changed | socketError | transmit | leaveQueue | abandon
  | abandonSend | controlData | controlEnd | report => exact .inl ⟨[], (List.append_nil _).symm⟩

end Frame

/-! ## What the calls hold -/

theorem prepare_recv {a : Association} {c : RecvCall} {w : Work} (h : a.prepare (.recv c) = ok w) :
    w = .receive c.buffer := by
  cases c with
  | recvFrom buffer => cases h; rfl
  | recv buffer =>
    obtain ⟨peer, -, h⟩ := bind_eq_ok.1 h
    cases h
    rfl

variable (a : Association) in
/-- A waiting receive has the caller's buffer and a full packet buffer, and a send that has read the flag the frame of
its payload and target. -/
structure Calls (s : State) : Prop where
  selecting : ∀ t c payload packet, s.phase t = .selecting c payload packet →
    payload = c.buffer ∧ packet.length = MAX_UDP_PAYLOAD
  sending : ∀ t c payload frame, s.phase t = .sending c payload frame →
    ∃ target, a.prepare (.send c) = ok (.send payload target) ∧ associatedFrame a.b64 payload target = ok frame

section Keep

variable {a : Association} {s s' : State} {act : Action} {t : Nat} {p : Phase}

/-- A call goes on. -/
theorem Calls.update (h : a.Calls s) (hph : s'.phase = Function.update s.phase t p)
    (hselecting : ∀ c payload packet, p = .selecting c payload packet →
      payload = c.buffer ∧ packet.length = MAX_UDP_PAYLOAD)
    (hsending : ∀ c payload frame, p = .sending c payload frame →
      ∃ target, a.prepare (.send c) = ok (.send payload target) ∧ associatedFrame a.b64 payload target = ok frame) :
    a.Calls s' := by
  constructor
  · intro u c payload packet hu
    rw [hph] at hu
    rcases eq_or_ne u t with rfl | hne
    · rw [Function.update_self] at hu
      exact hselecting c payload packet hu
    · rw [Function.update_of_ne hne] at hu
      exact h.selecting u c payload packet hu
  · intro u c payload frame hu
    rw [hph] at hu
    rcases eq_or_ne u t with rfl | hne
    · rw [Function.update_self] at hu
      exact hsending c payload frame hu
    · rw [Function.update_of_ne hne] at hu
      exact h.sending u c payload frame hu

/-- A call leaves the socket. -/
theorem Calls.leave (h : a.Calls s) (hph : s'.phase = Function.update s.phase t p)
    (hselecting : ∀ c payload packet, p ≠ .selecting c payload packet)
    (hsending : ∀ c payload frame, p ≠ .sending c payload frame) : a.Calls s' :=
  h.update hph (fun c payload packet hp => absurd hp (hselecting c payload packet))
    fun c payload frame hp => absurd hp (hsending c payload frame)

theorem calls_init : a.Calls init := by
  constructor
  · intro t c payload packet h
    cases h
  · intro t c payload frame h
    cases h

theorem calls_step (hi : a.Inv s) (h : a.Calls s) (ha : a.Trans s act s') : a.Calls s' := by
  cases ha with
  | call | enter | refuse | closed | foreignClosed | changed | socketError | transmit | leaveQueue | abandon
  | abandonSend => exact h.leave rfl (by simp [Association.closed]) (by simp [Association.closed])
  | @flag t c payload target hph hh hv =>
    refine h.update rfl (fun c' payload' packet hp => ?_) fun c' payload' frame hp => ?_
    · have hq := not_inQueue_afterFlag (a := a) c payload target
      rw [hp] at hq
      exact absurd trivial hq
    · unfold afterFlag at hp
      split at hp
      · cases hp
        exact ⟨target, hi.prepared t _ _ hph, ‹_›⟩
      · cases hp
      · cases hp
  | @select t c payload hph hh hv =>
    refine h.update rfl (fun c' payload' packet hp => ?_) fun c' payload' frame hp => by cases hp
    cases hp
    exact ⟨(Work.receive.inj (prepare_recv (hi.prepared t _ _ hph))), List.length_replicate⟩
  | @relayed t c payload packet bytes arrived hph harr =>
    refine h.update rfl (fun c' payload' packet' hp => ?_) fun c' payload' frame hp => ?_
    · have hq := not_inQueue_afterPacket (a := a) c
        (parsePacket a.b64 payload (fillPacket packet bytes).1 (fillPacket packet bytes).2)
      rw [hp] at hq
      exact absurd trivial hq
    · unfold afterPacket at hp
      split at hp
      · split at hp <;> cases hp
      · cases hp
      · cases hp
  | @foreign t c payload packet bytes source arrived hph harr hne hv =>
    refine h.update rfl (fun c' payload' packet' hp => ?_) fun c' payload' frame hp => by cases hp
    cases hp
    obtain ⟨hbuffer, hlen⟩ := h.selecting t c payload packet hph
    exact ⟨hbuffer, (length_fillPacket packet bytes).trans hlen⟩
  | arrive | controlData | controlEnd | report => exact ⟨h.selecting, h.sending⟩

theorem calls_of_reachable {guard : State → Action → Prop} (h : Reachable a.step guard init s) : a.Calls s := by
  have hboth : a.Inv s ∧ a.Calls s := h.invariant (I := fun s => a.Inv s ∧ a.Calls s) ⟨inv_init, calls_init⟩
    fun _ _ _ hs _ ha => ⟨inv_step hs.1 (trans_of_step ha), calls_step hs.1 hs.2 (trans_of_step ha)⟩
  exact hboth.2

end Keep

end LzcSdk.RemoteSocks.Association
