import LzcSdk.RemoteSocks.AssociationCalls

/-!
# The end of the control stream

The flag is a level: it goes up when the task that reads the control stream has met its end or a read error, and it
never goes down. The notification of the change is an edge, which one receiver consumes. Both together close an
association for good (`control_closure_final`): a call that reads the flag afterwards is turned away, and the receive
that waits at that moment has the closing branch enabled, since nobody else can consume its notification (`Notified`).
-/

namespace LzcSdk.RemoteSocks.Association

open Outcome ByteIo Lts

/-! ## The flag -/

section Flag

variable {a : Association} {s s' : State} {act : Action} {t : Nat}

/-- The control stream ends, and then the end is reported; nothing else touches it. -/
theorem control_of_trans (h : a.Trans s act s') : s'.control = s.control ∨
    (act = .controlEnd ∧ s.control = .live ∧ s'.control = .over) ∨
      (act = .report ∧ s.control = .over ∧ s'.control = .reported) := by
  cases h with
  | controlEnd hc => exact .inr (.inl ⟨rfl, hc, rfl⟩)
  | report hc => exact .inr (.inr ⟨rfl, hc, rfl⟩)
  | call | enter | refuse | closed | flag | select | relayed | foreignClosed | foreign | changed | socketError
  | transmit | leaveQueue | abandon | abandonSend | arrive | controlData => exact .inl rfl

/-- The flag is up once the end has been reported, and only then. -/
theorem value_iff (hi : a.Inv s) : s.watch.value = true ↔ s.control = .reported := by
  constructor
  · intro hv
    by_contra hn
    rw [hi.flag hn] at hv
    cases hv
  · exact fun h => (hi.reported h).1

theorem value_step (hi : a.Inv s) (hv : s.watch.value = true) (h : a.Trans s act s') : s'.watch.value = true := by
  refine (value_iff (inv_step hi h)).2 ?_
  have hr := (value_iff hi).1 hv
  rcases control_of_trans h with hc | ⟨-, hc, -⟩ | ⟨-, hc, -⟩
  · rw [hc, hr]
  · rw [hr] at hc
    cases hc
  · rw [hr] at hc
    cases hc

/-- A run that raises the flag has met the end of the control stream before. -/
theorem controlEnd_of_run {as : List Action} (h : run a.step init as = some s) (hr : s.control = .reported) :
    ∃ before after, as = before ++ .controlEnd :: after ∧ .report ∈ after := by
  obtain ⟨before, act, after, r, r', rfl, ha, hafter, hr0, hr1⟩ :=
    exists_turn (P := fun s : State => s.control ≠ .live) h (by simp [init]) (by simp [hr])
  rw [not_not] at hr0
  rcases control_of_trans (trans_of_step ha) with hc | ⟨rfl, -, hover⟩ | ⟨-, hc, -⟩
  · exact absurd (hc.trans hr0) hr1
  · refine ⟨before, after, rfl, ?_⟩
    obtain ⟨pre, act', post, q, q', rfl, hb, -, hq0, hq1⟩ :=
      exists_turn (P := fun s : State => s.control = .reported) hafter (by simp [hover]) hr
    rcases control_of_trans (trans_of_step hb) with hc | ⟨-, -, hc⟩ | ⟨rfl, -, -⟩
    · exact absurd (hc.symm.trans hq1) hq0
    · rw [hq1] at hc
      cases hc
    · exact List.mem_append_right _ List.mem_cons_self
  · rw [hr0] at hc
    cases hc

/-- The loop of `monitor_control_stream`, over what its reads return: it goes on after data, and reports the end after
an empty read or an error. -/
def monitorControlStream : List (Except IoError Nat) → List Action
  | [] => []
  | .ok 0 :: _ => [.controlEnd, .report]
  | .ok (_ + 1) :: reads => .controlData :: monitorControlStream reads
  | .error _ :: _ => [.controlEnd, .report]

/-- The task that reads the control stream raises the flag at its end or at an error, whatever data comes before. -/
theorem value_of_monitor (hlive : s.control = .live) (hv : s.watch.value = false) (reads : List (Except IoError Nat)) :
    ∃ s', run a.step s (monitorControlStream reads) = some s' ∧
      (s'.watch.value = true ↔ ∃ r ∈ reads, r = .ok 0 ∨ ∃ e, r = .error e) := by
  induction reads with
  | nil => exact ⟨s, rfl, by simp [hv]⟩
  | cons r reads ih =>
    have hend : ∃ s', run a.step s [.controlEnd, .report] = some s' ∧ s'.watch.value = true := by
      simp [run, step, hlive]
    cases r with
    | error e =>
      obtain ⟨s', hs', hup⟩ := hend
      exact ⟨s', hs', by simp [hup]⟩
    | ok n =>
      cases n with
      | zero =>
        obtain ⟨s', hs', hup⟩ := hend
        exact ⟨s', hs', by simp [hup]⟩
      | succ n =>
        obtain ⟨s', hs', hiff⟩ := ih
        refine ⟨s', ?_, by simpa using hiff⟩
        rw [monitorControlStream, run, step, if_pos hlive]
        exact hs'

end Flag

/-! ## The notification -/

/-- A receive that waits with the flag up has not seen the change yet. -/
def Notified (s : State) : Prop := ∀ t, (s.phase t).isSelecting → s.watch.value = true → s.watch.changed = true

section Notification

variable {a : Association} {s s' : State} {act : Action} {t : Nat}

/-- Who waits after a step waited before it, unless the step read the flag. -/
theorem isSelecting_of_trans (h : a.Trans s act s') (ht : (s'.phase t).isSelecting) :
    (s.phase t).isSelecting ∨ s.watch.value = false := by
  -- the call that moves does not wait afterwards
  have moved : ∀ {u : Nat} {p : Phase}, s'.phase = Function.update s.phase u p → ¬ p.isSelecting →
      (s.phase t).isSelecting := by
    intro u p hph hp
    rw [hph] at ht
    rcases eq_or_ne t u with rfl | hne
    · rw [Function.update_self] at ht
      exact absurd ht hp
    · rwa [Function.update_of_ne hne] at ht
  cases h with
  | select hph hh hv | foreign hph harr hne hv => exact .inr hv
  | call | enter | refuse | closed | foreignClosed | changed | socketError | transmit | leaveQueue | abandon
  | abandonSend => exact .inl (moved rfl id)
  | flag => exact .inl (moved rfl (Phase.not_isSelecting_of_not_inQueue (not_inQueue_afterFlag _ _ _)))
  | relayed => exact .inl (moved rfl (Phase.not_isSelecting_of_not_inQueue (not_inQueue_afterPacket _ _)))
  | arrive | controlData | controlEnd | report => exact .inl ht

theorem notified_step (hi : a.Inv s) (h : Notified s) (ha : a.Trans s act s') : Notified s' := by
  intro t ht hv
  have hbefore := isSelecting_of_trans ha ht
  cases ha with
  | report => rfl
  | @changed u c payload packet hph hc =>
    -- the notification goes to the only receive that waits
    rcases hbefore with hsel | hfalse
    · have hut : u = t := hi.serves.unique hsel (by rw [hph]; trivial)
      subst hut
      rw [show State.phase _ u = _ from Function.update_self ..] at ht
      exact ht.elim
    · exact absurd (hfalse.symm.trans hv) (by simp)
  | call | enter | refuse | closed | flag | select | relayed | foreignClosed | foreign | socketError | transmit
  | leaveQueue | abandon | abandonSend | arrive | controlData | controlEnd =>
    rcases hbefore with hsel | hfalse
    · exact h t hsel hv
    · exact absurd (hfalse.symm.trans hv) (by simp)

theorem notified_of_reachable {guard : State → Action → Prop} (h : Reachable a.step guard init s) : Notified s := by
  have hboth : a.Inv s ∧ Notified s := by
    refine h.invariant (I := fun s => a.Inv s ∧ Notified s) ⟨inv_init, fun _ ht => ht.elim⟩ ?_
    rintro s act s' ⟨hi, hn⟩ - ha
    exact ⟨inv_step hi (trans_of_step ha), notified_step hi hn (trans_of_step ha)⟩
  exact hboth.2

end Notification

/-! ## Turned away -/

/-- The caller's buffer, for a receive. -/
def Phase.buffer : Phase → Option (List UInt8)
  | entering (.recv c) => some c.buffer
  | queued (.recv _) (.receive payload) => some payload
  | selecting _ payload _ => some payload
  | finished (.recv _) (ok (.received r)) => some r.buffer
  | finished (.recv c) _ => some c.buffer
  | cancelled (.recv c) => some c.buffer
  | _ => none

/-- A call that does not get past the flag: it waits for the mutex, its arguments are refused, it is dropped, or it
returns that the control stream is closed. -/
inductive TurnedAway (a : Association) (c : Call) : Phase → Prop
  | entering : TurnedAway a c (.entering c)
  | queued (w : Work) : TurnedAway a c (.queued c w)
  | refused (h : ∀ w, a.prepare c ≠ ok w) : TurnedAway a c (.finished c (a.prepare c >>= fun _ => panicked))
  | closed : TurnedAway a c (.finished c (err .remoteSocksControlClosed))
  | cancelled : TurnedAway a c (.cancelled c)

section Closing

variable {a : Association} {s s' : State} {act : Action} {t : Nat} {c : Call}

/-- With the flag up nobody gets past it. -/
theorem turnedAway_step (hv : s.watch.value = true) (h : TurnedAway a c (s.phase t)) (ha : a.Trans s act s') :
    TurnedAway a c (s'.phase t) := by
  by_cases ht : act.task = some t
  · cases ha with
    | call hph | relayed hph | foreignClosed hph | foreign hph | changed hph | socketError hph | transmit hph
    | abandon hph | abandonSend hph =>
      cases ht
      rw [hph] at h
      cases h
    | flag hph hh hlow | select hph hh hlow => exact absurd (hlow.symm.trans hv) (by simp)
    | enter hph hp =>
      cases ht
      rw [hph] at h
      cases h
      rw [show State.phase _ t = _ from Function.update_self ..]
      exact .queued _
    | refuse hph hp ho =>
      cases ht
      rw [hph] at h
      cases h
      rw [show State.phase _ t = _ from Function.update_self .., ho]
      exact .refused hp
    | closed hph hh =>
      cases ht
      rw [hph] at h
      cases h
      rw [show State.phase _ t = _ from Function.update_self ..]
      exact .closed
    | leaveQueue hph =>
      cases ht
      rw [hph] at h
      cases h
      rw [show State.phase _ t = _ from Function.update_self ..]
      exact .cancelled
    | arrive | controlData | controlEnd | report => cases ht
  · rw [phase_of_ne ha ht]
    exact h

/-- The same over a run, and the flag stays up. -/
theorem turnedAway_of_reachable {guard : State → Action → Prop} (hi : a.Inv s) (hv : s.watch.value = true)
    (hr : Reachable a.step guard s s') :
    s'.watch.value = true ∧ (TurnedAway a c (s.phase t) → TurnedAway a c (s'.phase t)) := by
  have hall : a.Inv s' ∧ s'.watch.value = true ∧ (TurnedAway a c (s.phase t) → TurnedAway a c (s'.phase t)) := by
    refine hr.invariant
      (I := fun r => a.Inv r ∧ r.watch.value = true ∧ (TurnedAway a c (s.phase t) → TurnedAway a c (r.phase t)))
      ⟨hi, hv, id⟩ ?_
    rintro r act r' ⟨hi, hv, hc⟩ - ha
    have ht := trans_of_step ha
    exact ⟨inv_step hi ht, value_step hi hv ht, fun h => turnedAway_step hv (hc h) ht⟩
  exact hall.2

theorem not_transmit_of_turnedAway (h : TurnedAway a c (s.phase t)) (written : Except IoError Nat) :
    a.step s (.transmit t written) = none := by
  rw [step]
  cases hph : s.phase t with
  | sending c' payload frame =>
    rw [hph] at h
    cases h
  | idle | entering | queued | selecting | finished | cancelled => rfl

/-- A call that closes leaves the caller's buffer alone. -/
theorem buffer_closed_of_queued {w : Work} (hi : a.Inv s) (hph : s.phase t = .queued c w) :
    (closed c).buffer = (s.phase t).buffer := by
  have hp := hi.prepared t c w hph
  rw [hph]
  cases c with
  | send c => cases w <;> rfl
  | recv c => rw [prepare_recv hp]; rfl

theorem buffer_closed_of_selecting {c : RecvCall} {payload packet : List UInt8} (hc : a.Calls s)
    (hph : s.phase t = .selecting c payload packet) : (closed (.recv c)).buffer = (s.phase t).buffer := by
  rw [hph, Phase.buffer, (hc.selecting t c payload packet hph).1]
  rfl

/-- A call that reads the flag when it gets the mutex is turned away. -/
theorem closed_of_grant {w : Work} (hi : a.Inv s) (hv : s.watch.value = true) (hph : s.phase t = .queued c w)
    (ha : a.step s (.grant t) = some s') :
    s'.phase t = .finished c (err .remoteSocksControlClosed) ∧ (s'.phase t).buffer = (s.phase t).buffer ∧
      s'.handed = s.handed ∧ s'.arrived = s.arrived := by
  have hbuffer := buffer_closed_of_queued hi hph
  cases trans_of_step ha with
  | closed h =>
    rw [h] at hph
    cases hph
    rw [show State.phase _ t = closed c from Function.update_self ..]
    exact ⟨rfl, hbuffer, rfl, rfl⟩
  | flag h hh hlow | select h hh hlow => exact absurd (hlow.symm.trans hv) (by simp)

/-- So is a receive that goes on after a foreign datagram. -/
theorem closed_of_foreign {c : RecvCall} {payload packet bytes : List UInt8} {source : SocketAddr}
    {rest : List (SocketAddr × List UInt8)} (hc : a.Calls s) (hv : s.watch.value = true)
    (hph : s.phase t = .selecting c payload packet) (harr : s.arrived = (source, bytes) :: rest)
    (hne : source ≠ a.relay) (ha : a.step s (.datagram t) = some s') :
    s'.phase t = .finished (.recv c) (err .remoteSocksControlClosed) ∧ (s'.phase t).buffer = (s.phase t).buffer := by
  have hbuffer := buffer_closed_of_selecting hc hph
  cases trans_of_step ha with
  | relayed h hcons =>
    rw [harr] at hcons
    cases hcons
    exact absurd rfl hne
  | foreignClosed h hcons =>
    rw [h] at hph
    cases hph
    rw [show State.phase _ t = closed (.recv c) from Function.update_self ..]
    exact ⟨rfl, hbuffer⟩
  | foreign h hcons hne' hlow => exact absurd (hlow.symm.trans hv) (by simp)

/-- A waiting receive with its notification has the closing branch enabled. -/
theorem exists_closed_of_selecting {c : RecvCall} {payload packet : List UInt8} (hc : a.Calls s) (hn : Notified s)
    (hv : s.watch.value = true) (hph : s.phase t = .selecting c payload packet) :
    ∃ s', a.step s (.changed t) = some s' ∧ s'.phase t = .finished (.recv c) (err .remoteSocksControlClosed) ∧
      (s'.phase t).buffer = (s.phase t).buffer := by
  have hchanged : s.watch.changed = true := hn t (by rw [hph]; trivial) hv
  have hbuffer := buffer_closed_of_selecting hc hph
  refine ⟨{ s.leave t (closed (.recv c)) with watch := { s.watch with changed := false } }, ?_, ?_⟩
  · rw [step, hph]
    simp [hchanged]
  · rw [show State.phase _ t = closed (.recv c) from Function.update_self ..]
    exact ⟨rfl, hbuffer⟩

end Closing

/-- **The end of the control stream is final.** In every run the flag goes up only after the control stream has ended
or failed, whatever data came before, and stays up. From then on every call that has not read it is turned away without
a datagram; a call that reads it, and a receive that goes on after a foreign datagram, return that the control stream is
closed and leave the caller's buffer alone; and a receive that waits has the closing branch enabled. -/
theorem control_closure_final (a : Association) :
    (∀ as s, run a.step init as = some s → s.watch.value = true →
      ∃ before after, as = before ++ .controlEnd :: after ∧ .report ∈ after) ∧
    (∀ s reads, Reachable a.step anyStep init s → s.control = .live →
      ∃ s', run a.step s (monitorControlStream reads) = some s' ∧
        (s'.watch.value = true ↔ ∃ r ∈ reads, r = .ok 0 ∨ ∃ e, r = .error e)) ∧
    ∀ s, Reachable a.step anyStep init s → s.watch.value = true →
      (∀ s', Reachable a.step anyStep s s' → s'.watch.value = true ∧
        ∀ t c, s.phase t = .entering c ∨ (∃ w, s.phase t = .queued c w) →
          TurnedAway a c (s'.phase t) ∧ ∀ written, a.step s' (.transmit t written) = none) ∧
      (∀ t c w s', s.phase t = .queued c w → a.step s (.grant t) = some s' →
        s'.phase t = .finished c (err .remoteSocksControlClosed) ∧ (s'.phase t).buffer = (s.phase t).buffer ∧
        s'.handed = s.handed ∧ s'.arrived = s.arrived) ∧
      (∀ t c payload packet source bytes rest s', s.phase t = .selecting c payload packet →
        s.arrived = (source, bytes) :: rest → source ≠ a.relay → a.step s (.datagram t) = some s' →
        s'.phase t = .finished (.recv c) (err .remoteSocksControlClosed) ∧
        (s'.phase t).buffer = (s.phase t).buffer) ∧
      ∀ t c payload packet, s.phase t = .selecting c payload packet → ∃ s', a.step s (.changed t) = some s' ∧
        s'.phase t = .finished (.recv c) (err .remoteSocksControlClosed) ∧
        (s'.phase t).buffer = (s.phase t).buffer := by
  refine ⟨fun as s h hv => ?_, fun s reads hs hlive => ?_, fun s hs hv => ?_⟩
  · have hreach : Reachable a.step anyStep init s := .of_run (fun _ _ _ => trivial) h
    exact controlEnd_of_run h ((value_iff (inv_of_reachable hreach)).1 hv)
  · have hlow : s.watch.value = false := by rw [(inv_of_reachable hs).flag (by simp [hlive])]
    exact value_of_monitor hlive hlow reads
  · have hi := inv_of_reachable hs
    have hcalls := calls_of_reachable hs
    refine ⟨fun s' hr => ?_, fun t c w s' hph ha => closed_of_grant hi hv hph ha,
      fun t c payload packet source bytes rest s' hph harr hne ha => closed_of_foreign hcalls hv hph harr hne ha,
      fun t c payload packet hph => exists_closed_of_selecting hcalls (notified_of_reachable hs) hv hph⟩
    refine ⟨(turnedAway_of_reachable (t := 0) (c := .send (.send [])) hi hv hr).1, fun t c h => ?_⟩
    have hstart : TurnedAway a c (s.phase t) := by
      rcases h with h | ⟨w, h⟩ <;> rw [h]
      · exact .entering
      · exact .queued w
    have hend := (turnedAway_of_reachable hi hv hr).2 hstart
    exact ⟨hend, not_transmit_of_turnedAway hend⟩

/-- Two receives, one waiting and one behind it: the first consumes the notification, and the second is turned away. -/
theorem control_closure_final_two :
    let a : Association := ⟨Base64.standardNoPad, .v4 (Ipv4Addr.new 10 0 0 1) 1080, none⟩
    ∃ s s', run a.step init [.call 0 (.recv (.recvFrom [7])), .enter 0, .grant 0, .call 1 (.recv (.recvFrom [8])),
        .enter 1, .controlData, .controlEnd, .report, .changed 0] = some s ∧ a.step s (.grant 1) = some s' ∧
      s'.phase 1 = .finished (.recv (.recvFrom [8])) (err .remoteSocksControlClosed) ∧
      (s'.phase 1).buffer = some [8] := by
  intro a
  obtain ⟨s, hrun, hv, hh, hph⟩ : ∃ s, run a.step init [.call 0 (.recv (.recvFrom [7])), .enter 0, .grant 0,
        .call 1 (.recv (.recvFrom [8])), .enter 1, .controlData, .controlEnd, .report, .changed 0] = some s ∧
      s.watch.value = true ∧ s.lock.holder = some 1 ∧
      s.phase 1 = .queued (.recv (.recvFrom [8])) (.receive [8]) := ⟨_, rfl, rfl, rfl, rfl⟩
  have ha : a.step s (.grant 1) = some (s.leave 1 (closed (.recv (.recvFrom [8])))) := by
    simp [step, hph, hh, hv]
  have hs : Reachable a.step anyStep init s := .of_run (fun _ _ _ => trivial) hrun
  obtain ⟨hclosed, hbuffer, -⟩ := ((control_closure_final a).2.2 s hs hv).2.1 1 _ _ _ hph ha
  exact ⟨s, _, hrun, ha, hclosed, hbuffer.trans (by rw [hph]; rfl)⟩

end LzcSdk.RemoteSocks.Association
