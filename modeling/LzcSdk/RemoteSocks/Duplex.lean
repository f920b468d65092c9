import LzcSdk.RemoteSocks.Association

/-!
# Sends behind receives

A send on an association needs the mutex to read the flag, and a receive holds the mutex until it returns. So a send
that asks for the mutex behind a receive waits for a datagram of the relay, which the proxy may never send.

**A pending send gets through exactly when the datagrams of the receives before it have arrived**
(`send_proceeds_iff`): with the control stream open, and nothing but the steps of the library's own tasks, it reaches
the UDP socket if and only if at most as many receives have the mutex before it as datagrams of the relay wait in the
socket. One receive that waits for an answer blocks every send (`waiting_receive_blocks_send`).
-/

namespace LzcSdk.RemoteSocks.Association

open Outcome ByteIo Lts

/-- The steps that need nothing from the proxy and nothing new from the callers. -/
def ownStep (_ : State) : Action → Prop
  | .enter _ => True
  | .grant _ => True
  | .datagram _ => True
  | .changed _ => True
  | .transmit _ _ => True
  | .report => True
  | _ => False

/-- The call is a receive that waits for the mutex or has it. -/
def Phase.isReceive : Phase → Bool
  | queued _ (.receive _) => true
  | selecting _ _ _ => true
  | _ => false

/-- The receives that have the mutex before a call. -/
def receivesAhead (s : State) (t : Nat) : Nat := (s.lock.ahead t).countP fun u => (s.phase u).isReceive

/-- The datagrams of the relay that wait in the UDP socket. -/
def relayQueued (a : Association) (s : State) : Nat := s.arrived.countP fun d => d.1 = a.relay

/-- The call is a send of this payload that waits for the mutex, or is about to ask for it. -/
def Pending (a : Association) (s : State) (t : Nat) (payload : List UInt8) (target : SocksAddress) : Prop :=
  ∃ c, s.phase t = .queued (.send c) (.send payload target) ∨
    s.phase t = .entering (.send c) ∧ a.prepare (.send c) = ok (.send payload target)

/-- The call hands this datagram to the UDP socket. -/
def Handing (s : State) (t : Nat) (frame : List UInt8) : Prop := ∃ c payload, s.phase t = .sending c payload frame

section Duplex

variable {a : Association} {s s' : State} {t u : Nat} {p : Phase} {payload : List UInt8} {target : SocksAddress}

/-! ## Counting -/

/-- A call that is not in the queue, or stays what it is, does not change the count. -/
theorem receivesAhead_update (hl : s'.lock = s.lock) (hph : s'.phase = Function.update s.phase u p)
    (hu : u ∉ s.lock.queue ∨ p.isReceive = (s.phase u).isReceive) : receivesAhead s' t = receivesAhead s t := by
  rw [receivesAhead, receivesAhead, hl, hph]
  apply List.countP_congr
  intro v hv
  rcases eq_or_ne v u with rfl | hne
  · rcases hu with hu | hp
    · exact absurd (FairLock.mem_of_mem_ahead hv) hu
    · rw [Function.update_self, hp]
  · rw [Function.update_of_ne hne]

theorem countReceives_of_not_mem {us : List Nat} (hu : u ∉ us) (hph : ∀ v, v ≠ u → s'.phase v = s.phase v) :
    us.countP (fun v => (s'.phase v).isReceive) = us.countP fun v => (s.phase v).isReceive := by
  apply List.countP_congr
  intro v hv
  have hne : v ≠ u := fun h => hu (h ▸ hv)
  rw [hph v hne]

/-- The holder leaves with what it takes from the socket: a receive takes one datagram of the relay, a send none. -/
structure Leaves (a : Association) (s s' : State) (u : Nat) : Prop where
  lock : s'.lock = s.lock.release u
  others : ∀ v, v ≠ u → s'.phase v = s.phase v
  control : s'.control = s.control
  taken : relayQueued a s = relayQueued a s' + if (s.phase u).isReceive then 1 else 0

/-- When the holder leaves, as many receives as datagrams of the relay are gone. -/
theorem Leaves.count (h : Leaves a s s' u) (hh : s.lock.holder = some u) (hne : u ≠ t) :
    relayQueued a s' + receivesAhead s t = relayQueued a s + receivesAhead s' t := by
  have hmem : u ∉ (s.lock.release u).ahead t := fun hm =>
    (FairLock.mem_release.1 (FairLock.mem_of_mem_ahead hm)).1 rfl
  have hothers : receivesAhead s' t = ((s.lock.release u).ahead t).countP fun v => (s.phase v).isReceive := by
    rw [receivesAhead, h.lock]
    exact countReceives_of_not_mem hmem h.others
  have htaken := h.taken
  rw [receivesAhead, FairLock.ahead_release_holder hh hne, List.countP_cons, ← hothers]
  omega

/-- A send that reads the flag leaves. -/
theorem leaves_flag {c : SendCall} {w : List UInt8} {peer : SocksAddress}
    (hph : s.phase u = .queued (.send c) (.send w peer)) : Leaves a s (s.leave u p) u :=
  ⟨rfl, fun v hv => Function.update_of_ne hv _ _, rfl, by rw [hph]; rfl⟩

/-- A receive that takes a datagram of the relay leaves. -/
theorem leaves_relayed {c : RecvCall} {w packet bytes : List UInt8} {arrived : List (SocketAddr × List UInt8)}
    (hph : s.phase u = .selecting c w packet) (harr : s.arrived = (a.relay, bytes) :: arrived) :
    Leaves a s ({ s with arrived }.leave u p) u := by
  refine ⟨rfl, fun v hv => Function.update_of_ne hv _ _, rfl, ?_⟩
  rw [hph, relayQueued, relayQueued, harr, List.countP_cons_of_pos (by simp)]
  rfl

/-- A datagram from elsewhere is nobody's answer. -/
theorem relayQueued_foreign {bytes : List UInt8} {source : SocketAddr} {arrived : List (SocketAddr × List UInt8)}
    (harr : s.arrived = (source, bytes) :: arrived) (hne : source ≠ a.relay) (harr' : s'.arrived = arrived) :
    relayQueued a s' = relayQueued a s := by
  rw [relayQueued, relayQueued, harr, harr', List.countP_cons_of_neg (by simpa using hne)]

/-- A call that asks for the mutex is behind the receives that are there. -/
theorem receivesAhead_acquire_self (ht : t ∉ s.lock.queue) (hl : s'.lock = s.lock.acquire t)
    (hph : s'.phase = Function.update s.phase t p) : receivesAhead s' t = receivesAhead s t := by
  rw [receivesAhead, hl, FairLock.ahead_acquire_self ht]
  exact countReceives_of_not_mem (fun hm => ht (FairLock.mem_of_mem_ahead hm))
    fun v hv => by rw [hph, Function.update_of_ne hv]

/-- Calls that ask for the mutex later do not bring it forward. -/
theorem receivesAhead_acquire (hu : u ∉ s.lock.queue) (hne : u ≠ t) (hl : s'.lock = s.lock.acquire u)
    (hph : s'.phase = Function.update s.phase u p) : receivesAhead s t ≤ receivesAhead s' t := by
  have hpre : s.lock.ahead t <+: s'.lock.ahead t := hl ▸ FairLock.ahead_prefix_acquire hne
  have hsame := countReceives_of_not_mem (fun hm : u ∈ s.lock.ahead t => hu (FairLock.mem_of_mem_ahead hm))
    fun v hv => show s'.phase v = s.phase v by rw [hph, Function.update_of_ne hv]
  rw [receivesAhead, ← hsame]
  exact List.Sublist.countP_le hpre.sublist

theorem receivesAhead_holder (hh : s.lock.holder = some t) : receivesAhead s t = 0 := by
  rw [receivesAhead, FairLock.ahead_of_holder hh]
  rfl

/-! ## A blocked send -/

variable (a) in
/-- A pending send with more receives before it than datagrams of the relay in the socket. -/
structure Blocked (s : State) (t : Nat) (payload : List UInt8) (target : SocksAddress) : Prop where
  live : s.control = .live
  pending : Pending a s t payload target
  more : relayQueued a s < receivesAhead s t

/-- A step of another call that takes no more datagrams of the relay than receives out of the queue. -/
theorem Blocked.keep (h : Blocked a s t payload target) (hc : s'.control = s.control) (hph : s'.phase t = s.phase t)
    (hcount : relayQueued a s' + receivesAhead s t ≤ relayQueued a s + receivesAhead s' t) :
    Blocked a s' t payload target := by
  obtain ⟨c, hpending⟩ := h.pending
  have hmore := h.more
  refine ⟨hc.trans h.live, ⟨c, ?_⟩, by omega⟩
  rw [hph]
  exact hpending

/-- Another call leaves the mutex. -/
theorem Blocked.leaves (h : Blocked a s t payload target) (hl : Leaves a s s' u) (hh : s.lock.holder = some u)
    (hne : u ≠ t) : Blocked a s' t payload target := by
  apply h.keep hl.control (hl.others t hne.symm)
  rw [hl.count hh hne]

/-- A step of another call outside the queue, or at its place in it. -/
theorem Blocked.stay (h : Blocked a s t payload target) (hne : u ≠ t) (hc : s'.control = s.control)
    (hph : s'.phase = Function.update s.phase u p) (hl : s'.lock = s.lock)
    (hr : relayQueued a s' = relayQueued a s) (hu : u ∉ s.lock.queue ∨ p.isReceive = (s.phase u).isReceive) :
    Blocked a s' t payload target := by
  apply h.keep hc
  · rw [hph, Function.update_of_ne hne.symm]
  · rw [hr, receivesAhead_update hl hph hu]

theorem not_mem_queue (hi : a.Inv s) (h : ¬ (s.phase u).inQueue) : u ∉ s.lock.queue :=
  fun hm => h ((hi.serves.mem_queue u).1 hm)

/-- A blocked send stays blocked. -/
theorem blocked_step {act : Action} (hi : a.Inv s) (h : Blocked a s t payload target) (hg : ownStep s act)
    (ha : a.Trans s act s') : Blocked a s' t payload target := by
  have hwatch : s.watch = ⟨false, false, true⟩ := hi.flag (by rw [h.live]; simp)
  have hholder : ∀ {u}, s.lock.holder = some u → u ≠ t := by
    rintro u hh rfl
    have hmore := h.more
    rw [receivesAhead_holder hh] at hmore
    exact Nat.not_lt_zero _ hmore
  obtain ⟨c', hpending⟩ := h.pending
  cases ha with
  | @enter u c w hph hp =>
    have hu : u ∉ s.lock.queue := not_mem_queue hi (by rw [hph]; exact id)
    rcases eq_or_ne u t with rfl | hne
    · -- the send itself asks for the mutex, behind everyone
      rcases hpending with hc | ⟨hc, hp'⟩ <;> cases hph.symm.trans hc
      cases hp.symm.trans hp'
      refine ⟨h.live, ⟨c', .inl (Function.update_self ..)⟩, Nat.lt_of_lt_of_le h.more ?_⟩
      exact Nat.le_of_eq (receivesAhead_acquire_self hu rfl rfl).symm
    · refine h.keep rfl (Function.update_of_ne hne.symm _ _) (Nat.add_le_add_left ?_ _)
      exact receivesAhead_acquire hu hne rfl rfl
  | @refuse u c o hph hp ho =>
    have hne : u ≠ t := by
      rintro rfl
      rcases hpending with hc | ⟨hc, hp'⟩ <;> cases hph.symm.trans hc
      exact hp _ hp'
    exact h.stay hne rfl rfl rfl rfl (.inl (not_mem_queue hi (by rw [hph]; exact id)))
  | closed hph hh hv => rw [hwatch] at hv; cases hv
  | flag hph hh hv => exact h.leaves (leaves_flag hph) hh (hholder hh)
  | select hph hh hv =>
    refine h.stay (hholder hh) rfl rfl rfl rfl ?_
    rw [hph]
    exact .inr rfl
  | @relayed u c payload' packet bytes arrived hph harr =>
    have hh : s.lock.holder = some u := hi.serves.holder u (by rw [hph]; trivial)
    exact h.leaves (leaves_relayed hph harr) hh (hholder hh)
  | foreignClosed hph harr hne hv => rw [hwatch] at hv; cases hv
  | @foreign u c payload' packet bytes source arrived hph harr hsrc hv =>
    have hh : s.lock.holder = some u := hi.serves.holder u (by rw [hph]; trivial)
    refine h.stay (hholder hh) rfl rfl rfl (relayQueued_foreign harr hsrc rfl) ?_
    rw [hph]
    exact .inr rfl
  | changed hph hc => rw [hwatch] at hc; simp at hc
  | @transmit u c payload' frame written hph =>
    have hne : u ≠ t := by
      rintro rfl
      rcases hpending with hc | ⟨hc, -⟩ <;> cases hph.symm.trans hc
    exact h.stay hne rfl rfl rfl rfl (.inl (not_mem_queue hi (by rw [hph]; exact id)))
  | report hc => rw [h.live] at hc; cases hc
  | call | socketError | leaveQueue | abandon | abandonSend | arrive | controlData | controlEnd => exact absurd hg id

/-- However the library's own tasks go on, a blocked send does not get to the UDP socket. -/
theorem not_handing_of_blocked {frame : List UInt8} (hi : a.Inv s) (h : Blocked a s t payload target)
    (hr : Reachable a.step ownStep s s') : ¬ Handing s' t frame := by
  have hboth : a.Inv s' ∧ Blocked a s' t payload target := by
    apply hr.invariant (I := fun s => a.Inv s ∧ Blocked a s t payload target) ⟨hi, h⟩
    intro s act s' hs hg ha
    exact ⟨inv_step hs.1 (trans_of_step ha), blocked_step hs.1 hs.2 hg (trans_of_step ha)⟩
  rintro ⟨c, w, hph⟩
  obtain ⟨c', hc | ⟨hc, -⟩⟩ := hboth.2.pending <;> cases hph.symm.trans hc

/-! ## The way to the UDP socket -/

theorem exists_of_sendTo {w : Work} {peer : SocksAddress}
    (h : sendTo (fun payload target => ok (.send payload target)) payload peer = (ok w : Outcome Error Work)) :
    ∃ payload target, w = .send payload target := by
  rw [sendTo] at h
  split at h <;> cases h
  exact ⟨_, _, rfl⟩

/-- A send is prepared to send. -/
theorem exists_of_prepare_send {c : SendCall} {w : Work} (h : a.prepare (.send c) = ok w) :
    ∃ payload target, w = .send payload target := by
  cases c with
  | sendTo payload target => exact exists_of_sendTo h
  | send payload =>
    obtain ⟨peer, -, h⟩ := bind_eq_ok.1 h
    exact exists_of_sendTo h

/-- A receive is prepared to receive. -/
theorem exists_of_prepare_recv {c : RecvCall} {w : Work} (h : a.prepare (.recv c) = ok w) :
    ∃ payload, w = .receive payload := by
  cases c with
  | recvFrom payload => cases h; exact ⟨_, rfl⟩
  | recv payload =>
    obtain ⟨peer, -, h⟩ := bind_eq_ok.1 h
    cases h
    exact ⟨_, rfl⟩

/-- Before it leaves, the call that has the mutex may take steps at its place in the queue. -/
theorem Leaves.after_stay {r : State} (h : Leaves a r s' u) (hl : r.lock = s.lock) (hc : r.control = s.control)
    (hph : r.phase = Function.update s.phase u p) (hr : relayQueued a r = relayQueued a s)
    (hp : p.isReceive = (s.phase u).isReceive) : Leaves a s s' u := by
  refine ⟨hl ▸ h.lock, ?_, h.control.trans hc, ?_⟩
  · intro v hv
    rw [h.others v hv, hph, Function.update_of_ne hv]
  · rw [← hr, h.taken, hph, Function.update_self, hp]

/-- A receive that has the mutex and a datagram of the relay in the socket can leave. -/
theorem exists_leaves_of_selecting {c : RecvCall} {w : List UInt8} :
    ∀ {arrived : List (SocketAddr × List UInt8)} {s : State} {packet : List UInt8},
      s.phase u = .selecting c w packet → s.arrived = arrived → s.control = .live → a.Inv s → 0 < relayQueued a s →
      ∃ s', Reachable a.step ownStep s s' ∧ Leaves a s s' u := by
  intro arrived
  induction arrived with
  | nil =>
    intro s packet _ harr _ _ hpos
    rw [relayQueued, harr] at hpos
    exact absurd hpos (Nat.lt_irrefl 0)
  | cons d arrived ih =>
    intro s packet hph harr hlive hi hpos
    obtain ⟨source, bytes⟩ := d
    have hv : s.watch.value = false := by rw [hi.flag (by rw [hlive]; simp)]
    by_cases hs : source = a.relay
    · subst hs
      have hstep : a.step s (.datagram u) = some ({ s with arrived }.leave u
          (a.afterPacket c (parsePacket a.b64 w (fillPacket packet bytes).1 (fillPacket packet bytes).2))) := by
        simp [step, hph, harr]
      exact ⟨_, .single hstep trivial, leaves_relayed hph harr⟩
    · -- a datagram from elsewhere is dropped, and the receive goes on
      obtain ⟨r, hr⟩ : ∃ r, r = { s with arrived }.set u (.selecting c w (fillPacket packet bytes).1) := ⟨_, rfl⟩
      have hstep : a.step s (.datagram u) = some r := by
        simp [step, hph, harr, hs, hv, hr]
      have hq : relayQueued a r = relayQueued a s := relayQueued_foreign harr hs (by rw [hr]; rfl)
      have hrph : r.phase u = .selecting c w (fillPacket packet bytes).1 := by
        rw [hr]
        exact Function.update_self ..
      obtain ⟨s', hreach, hl⟩ := ih hrph (by rw [hr]; rfl) (by rw [hr]; exact hlive)
        (inv_step hi (trans_of_step hstep)) (by rw [hq]; exact hpos)
      refine ⟨s', .cons hstep trivial hreach,
        hl.after_stay (by rw [hr]; rfl) (by rw [hr]; rfl) (by rw [hr]; rfl) hq ?_⟩
      rw [hph]
      rfl

/-- The call that has the mutex can leave, a receive if a datagram of the relay is in the socket. -/
theorem exists_leaves (hi : a.Inv s) (hlive : s.control = .live) (hh : s.lock.holder = some u)
    (hpos : (s.phase u).isReceive = true → 0 < relayQueued a s) :
    ∃ s', Reachable a.step ownStep s s' ∧ Leaves a s s' u := by
  have hv : s.watch.value = false := by rw [hi.flag (by rw [hlive]; simp)]
  have hq : (s.phase u).inQueue := (hi.serves.mem_queue u).1 (FairLock.mem_of_holder hh)
  cases hph : s.phase u with
  | queued c w =>
    cases c with
    | send c =>
      obtain ⟨payload, target, rfl⟩ := exists_of_prepare_send (hi.prepared u _ _ hph)
      have hstep : a.step s (.grant u) = some (s.leave u (a.afterFlag c payload target)) := by
        simp [step, hph, hh, hv]
      exact ⟨_, .single hstep trivial, leaves_flag hph⟩
    | recv c =>
      obtain ⟨payload, rfl⟩ := exists_of_prepare_recv (hi.prepared u _ _ hph)
      have hstep : a.step s (.grant u) =
          some (s.set u (.selecting c payload (List.replicate MAX_UDP_PAYLOAD 0))) := by
        simp [step, hph, hh, hv]
      have hrph : (s.set u (.selecting c payload (List.replicate MAX_UDP_PAYLOAD 0))).phase u = _ :=
        Function.update_self ..
      obtain ⟨s', hreach, hl⟩ := exists_leaves_of_selecting hrph rfl hlive (inv_step hi (trans_of_step hstep))
        (hpos (by rw [hph]; rfl))
      refine ⟨s', .cons hstep trivial hreach, hl.after_stay rfl rfl rfl rfl ?_⟩
      rw [hph]
      rfl
  | selecting c payload packet =>
    rw [hph] at hpos
    exact exists_leaves_of_selecting hph rfl hlive hi (hpos rfl)
  | idle | entering | sending | finished | cancelled => rw [hph] at hq; exact absurd hq id

/-- A queued send that has no more receives before it than there are datagrams of the relay in the socket. -/
structure CanPass (a : Association) (s : State) (t : Nat) (c : SendCall) (payload : List UInt8)
    (target : SocksAddress) : Prop where
  inv : a.Inv s
  live : s.control = .live
  queued : s.phase t = .queued (.send c) (.send payload target)
  count : receivesAhead s t ≤ relayQueued a s

/-- It still is one when a call before it has left. -/
theorem CanPass.leave {c : SendCall} (h : CanPass a s t c payload target) (hh : s.lock.holder = some u)
    (hu : u ∈ s.lock.ahead t) :
    ∃ r, Reachable a.step ownStep s r ∧ r.lock = s.lock.release u ∧ CanPass a r t c payload target := by
  have hne : u ≠ t := FairLock.ne_of_mem_ahead hu
  have hpos : (s.phase u).isReceive = true → 0 < relayQueued a s := by
    intro hreceive
    have hcount : 0 < receivesAhead s t := List.countP_pos_iff.2 ⟨u, hu, hreceive⟩
    exact hcount.trans_le h.count
  obtain ⟨r, hreach, hl⟩ := exists_leaves h.inv h.live hh hpos
  have hcount := hl.count hh hne
  have hle := h.count
  have hir : a.Inv r := hreach.invariant h.inv fun _ _ _ hs _ ha => inv_step hs (trans_of_step ha)
  exact ⟨r, hreach, hl.lock, hir, hl.control.trans h.live, by rw [hl.others t hne.symm, h.queued], by omega⟩

/-- It gets the mutex and hands over its datagram. -/
theorem exists_handing_of_queued {c : SendCall} {frame : List UInt8} (h : CanPass a s t c payload target)
    (hframe : associatedFrame a.b64 payload target = ok frame) :
    ∃ s', Reachable a.step ownStep s s' ∧ Handing s' t frame := by
  have hturn : ∃ r, Reachable a.step ownStep s r ∧ CanPass a r t c payload target ∧ r.lock.holder = some t := by
    refine FairLock.exists_holder (I := fun s => CanPass a s t c payload target) (fun s u hs hh hu => ?_) h
      ((h.inv.serves.mem_queue t).2 (by rw [h.queued]; trivial))
    exact hs.leave hh hu
  obtain ⟨r, hreach, hr, hh⟩ := hturn
  have hv : r.watch.value = false := by rw [hr.inv.flag (by rw [hr.live]; simp)]
  have hstep : a.step r (.grant t) = some (r.leave t (a.afterFlag c payload target)) := by
    simp [step, hr.queued, hh, hv]
  refine ⟨_, hreach.snoc (a := .grant t) trivial hstep, c, payload, ?_⟩
  rw [afterFlag, hframe]
  exact Function.update_self ..

/-- A pending send asks for the mutex if it has not, and gets there. -/
theorem exists_handing {frame : List UInt8} (hi : a.Inv s) (hlive : s.control = .live)
    (hpending : Pending a s t payload target) (hframe : associatedFrame a.b64 payload target = ok frame)
    (hle : receivesAhead s t ≤ relayQueued a s) : ∃ s', Reachable a.step ownStep s s' ∧ Handing s' t frame := by
  obtain ⟨c, hph | ⟨hph, hp⟩⟩ := hpending
  · exact exists_handing_of_queued ⟨hi, hlive, hph, hle⟩ hframe
  · have ht : t ∉ s.lock.queue := not_mem_queue hi (by rw [hph]; exact id)
    have hstep : a.step s (.enter t) =
        some { s.set t (.queued (.send c) (.send payload target)) with lock := s.lock.acquire t } := by
      simp [step, hph, hp]
    have hcount : receivesAhead { s.set t (.queued (.send c) (.send payload target)) with lock := s.lock.acquire t } t ≤
        relayQueued a s := by
      rw [receivesAhead_acquire_self ht rfl rfl]
      exact hle
    obtain ⟨s', hreach, hhand⟩ := exists_handing_of_queued
      ⟨inv_step hi (trans_of_step hstep), hlive, Function.update_self .., hcount⟩ hframe
    exact ⟨s', .cons hstep trivial hreach, hhand⟩

/-- **A pending send gets through exactly when the datagrams of the receives before it have arrived.** In every
reachable state in which the control stream is open, a pending send with an encodable datagram can hand it to the UDP
socket by steps of the library's own tasks if and only if the receives that have the mutex before it are at most as
many as the datagrams of the relay in the socket. -/
theorem send_proceeds_iff {frame : List UInt8} (h : Reachable a.step anyStep init s) (hlive : s.control = .live)
    (hpending : Pending a s t payload target) (hframe : associatedFrame a.b64 payload target = ok frame) :
    (∃ s', Reachable a.step ownStep s s' ∧ Handing s' t frame) ↔ receivesAhead s t ≤ relayQueued a s := by
  have hi : a.Inv s := inv_of_reachable h
  constructor
  · rintro ⟨s', hreach, hhand⟩
    by_contra hmore
    exact not_handing_of_blocked hi ⟨hlive, hpending, Nat.lt_of_not_le hmore⟩ hreach hhand
  · exact exists_handing hi hlive hpending hframe

/-- An association of a resolver client. -/
def resolverClient : Association :=
  ⟨Base64.standardNoPad, .v4 (Ipv4Addr.new 10 0 0 1) 1080, some (.Ip (.v4 (Ipv4Addr.new 8 8 8 8) 53))⟩

/-- A reader waits for an answer before the writer sends the question. -/
def readerFirst : List Action :=
  [.call 0 (.recv (.recv [])), .enter 0, .grant 0, .call 1 (.send (.send [0x68, 0x69])), .enter 1]

/-- An answer is there already: the reader takes it, and the writer gets through. -/
theorem send_proceeds_iff_answered :
    ∃ s, run resolverClient.step init
        (readerFirst ++ [.arrive resolverClient.relay [0, 0, 0, 1, 8, 8, 8, 8, 0, 53, 0x6f, 0x6b]]) = some s ∧
      ∃ s', Reachable resolverClient.step ownStep s s' ∧ Handing s' 1 [0, 0, 0, 1, 8, 8, 8, 8, 0, 53, 0x68, 0x69] := by
  have hrun : (run resolverClient.step init
    (readerFirst ++ [.arrive resolverClient.relay [0, 0, 0, 1, 8, 8, 8, 8, 0, 53, 0x6f, 0x6b]])).isSome := rfl
  refine ⟨_, (Option.some_get hrun).symm, ?_⟩
  exact (send_proceeds_iff (Reachable.of_run (fun _ _ _ => trivial) (Option.some_get hrun).symm) rfl
    ⟨.send [0x68, 0x69], .inl rfl⟩ rfl).2 (Nat.le_refl 1)

/-- The reader has the mutex until an answer comes, so the question is never sent. -/
theorem waiting_receive_blocks_send :
    ∃ s, Reachable resolverClient.step anyStep init s ∧ s.control = .live ∧
      Pending resolverClient s 1 [0x68, 0x69] (.Ip (.v4 (Ipv4Addr.new 8 8 8 8) 53)) ∧
      associatedFrame resolverClient.b64 [0x68, 0x69] (.Ip (.v4 (Ipv4Addr.new 8 8 8 8) 53)) =
        ok [0, 0, 0, 1, 8, 8, 8, 8, 0, 53, 0x68, 0x69] ∧
      ¬ ∃ s', Reachable resolverClient.step ownStep s s' ∧
        Handing s' 1 [0, 0, 0, 1, 8, 8, 8, 8, 0, 53, 0x68, 0x69] := by
  have hrun : (run resolverClient.step init readerFirst).isSome := rfl
  have hreach : Reachable resolverClient.step anyStep init (Option.get _ hrun) :=
    .of_run (fun _ _ _ => trivial) (Option.some_get hrun).symm
  have hpending : Pending resolverClient (Option.get _ hrun) 1 [0x68, 0x69]
      (.Ip (.v4 (Ipv4Addr.new 8 8 8 8) 53)) := ⟨.send [0x68, 0x69], .inl rfl⟩
  refine ⟨_, hreach, rfl, hpending, rfl, ?_⟩
  rintro ⟨s', hown, hhand⟩
  exact not_handing_of_blocked (inv_of_reachable hreach) ⟨rfl, hpending, Nat.zero_lt_one⟩ hown hhand

end Duplex

end LzcSdk.RemoteSocks.Association
