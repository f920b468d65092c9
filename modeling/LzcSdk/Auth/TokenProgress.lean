import LzcSdk.Auth.TokenCache
import LzcSdk.Lib.Progress

/-!
# Calls of a token provider come to their end

A call takes four steps at most (`rank`), whatever the device and the inner channel answer and however the clocks go on.
As long as a call waits, the mutex can be granted, or the device or the inner channel can answer some call
(`exists_enabled`): **no call waits for ever** (`calls_end`).

**The mutex is fair** (`requests_in_order`): while a call waits for it, the device is asked only by calls that were
before it in the queue, by each once, and in the order of the queue.
-/

namespace LzcSdk.TokenProvider

open Outcome Lts History

/-! ## Ranks -/

/-- The steps that a call has left at most. -/
def Phase.rank : Phase → Nat
  | idle => 4
  | waiting _ => 3
  | requesting _ => 2
  | forwarding _ => 1
  | finished _ _ => 0
  | answered _ => 0
  | cancelled => 0

/-- The call of an action; the clocks go on without one. -/
def Action.task : Action → Option Nat
  | call t _ => some t
  | grant t => some t
  | respond t _ => some t
  | inner t _ => some t
  | cancel t => some t
  | tick _ => none

section Rank

variable {p : TokenProvider} {s s' : State} {a : Action} {t : Nat} {c : Call} {k : AuthToken}

theorem phase_set (s : State) (t : Nat) (ph : Phase) : (s.set t ph).phase t = ph := Function.update_self ..

theorem phase_set_of_ne {u : Nat} (hne : u ≠ t) (ph : Phase) : (s.set t ph).phase u = s.phase u :=
  Function.update_of_ne hne ..

theorem rank_afterToken (k : AuthToken) (c : Call) : (p.afterToken k c).1.rank ≤ 1 := by
  unfold afterToken
  split
  · exact Nat.zero_le 1
  · split
    · exact Nat.le_refl 1
    · exact Nat.zero_le 1

theorem rank_pos {ph : Phase} (h : ph.isAwaiting) : 0 < ph.rank := by
  cases ph with
  | waiting => exact Nat.zero_lt_succ 2
  | requesting => exact Nat.zero_lt_succ 1
  | forwarding => exact Nat.zero_lt_succ 0
  | idle | finished | answered | cancelled => cases h

/-- A step changes the phase of its call, to a lower rank. -/
theorem rank_step (ha : Trans p s a s') : (∀ u, a.task ≠ some u → s'.phase u = s.phase u) ∧
    ∀ t, a.task = some t → (s'.phase t).rank < (s.phase t).rank := by
  have hset : ∀ {t : Nat} {ph : Phase} {r : State}, r.phase = (s.set t ph).phase → ph.rank < (s.phase t).rank →
      (∀ u, some t ≠ some u → r.phase u = s.phase u) ∧ ∀ u, some t = some u → (r.phase u).rank < (s.phase u).rank := by
    intro t ph r hr hlt
    refine ⟨fun u hu => ?_, ?_⟩
    · rw [hr]
      exact phase_set_of_ne (fun hut => hu (congrArg some hut.symm)) ph
    · rintro u ⟨⟩
      rw [hr, phase_set]
      exact hlt
  cases ha with
  | call hph => exact hset rfl (by rw [hph]; exact Nat.lt_succ_self 3)
  | @serve t c k hph hold hk hfresh =>
    have hle := rank_afterToken (p := p) k c
    exact hset rfl (by rw [hph]; exact Nat.lt_succ_of_lt (Nat.lt_succ_of_le hle))
  | request hph => exact hset rfl (by rw [hph]; exact Nat.lt_succ_self 2)
  | unsigned hph => exact hset rfl (by rw [hph]; exact Nat.zero_lt_succ 2)
  | @obtain t c r k hph hk =>
    have hle := rank_afterToken (p := p) k c
    exact hset rfl (by rw [hph]; exact Nat.lt_succ_of_le hle)
  | fail hph => exact hset rfl (by rw [hph]; exact Nat.zero_lt_succ 1)
  | inner hph => exact hset rfl (by rw [hph]; exact Nat.zero_lt_succ 0)
  | cancel hph => exact hset rfl (rank_pos hph)
  | tick => exact ⟨fun _ _ => rfl, nofun⟩

/-- Every step brings its call nearer to its end, and no other one away from it. -/
theorem ranks (p : TokenProvider) : Ranks (step p) Action.task fun s t => (s.phase t).rank := by
  refine ⟨fun s a s' t ha htask => (rank_step (trans_of_step ha)).2 t htask, fun s a s' t ha hne => ?_⟩
  rw [(rank_step (trans_of_step ha)).1 t hne]

end Rank

/-! ## No call is stuck -/

section Enabled

variable {p : TokenProvider} {s s' : State} {t : Nat}

/-- What the mutex, the device and the inner channel do for a call, with these answers. -/
def services (t : Nat) (r : Except Nat RequestAuthTokenResponse) (response : Option Response) : List Action :=
  [.grant t, .respond t r, .inner t response]

/-- As long as a call waits for something, some call can go on, whatever the answer is. -/
theorem exists_enabled (hi : Inv p s) (hw : (s.phase t).isAwaiting) :
    ∃ u, ∀ r response, ∃ a ∈ services u r response, (step p s a).isSome := by
  have hqueue : (s.phase t).inQueue → ∃ u, ∀ r response, ∃ a ∈ services u r response, (step p s a).isSome := by
    intro hq
    obtain ⟨u, hh, hu⟩ := hi.serves.exists_first hq
    refine ⟨u, fun r response => ?_⟩
    cases hph : s.phase u with
    | waiting c => exact ⟨.grant u, by simp [services], by simp [step, hph, hh]⟩
    | requesting c =>
      refine ⟨.respond u r, by simp [services], ?_⟩
      simp only [step, hph]
      split <;> rfl
    | _ => rw [hph] at hu; cases hu
  cases hph : s.phase t with
  | waiting c => exact hqueue (by rw [hph]; trivial)
  | requesting c => exact hqueue (by rw [hph]; trivial)
  | forwarding sent => exact ⟨t, fun r response => ⟨.inner t response, by simp [services], by simp [step, hph]⟩⟩
  | idle | finished | answered | cancelled => rw [hph] at hw; cases hw

/-- **Calls come to their end.** For every interleaving of finitely many calls: a call takes four steps at most, the run
has no more steps of calls than they have left, and where it ends some call waits only if one can go on, whatever the
device and the inner channel answer. -/
theorem calls_end {systemNow : SystemTime} {instantNow : Instant} {as : List Action} {T : Finset Nat}
    (h : Reachable (step p) anyStep (init systemNow instantNow) s) (hT : ∀ a ∈ as, ∀ t, a.task = some t → t ∈ T)
    (hr : run (step p) s as = some s') :
    (∀ t, (as.filterMap Action.task).count t + (s'.phase t).rank ≤ (s.phase t).rank) ∧
    (as.filterMap Action.task).length ≤ ∑ t ∈ T, (s.phase t).rank ∧
    ∀ t, (s'.phase t).isAwaiting → ∃ u, ∀ r response, ∃ a ∈ services u r response, (step p s' a).isSome := by
  have hreach : Reachable (step p) anyStep (init systemNow instantNow) s' := h.append_run (fun _ _ _ => trivial) hr
  refine ⟨fun t => (ranks p).count_add_le t hr, (ranks p).length_le hT hr, fun t ht => ?_⟩
  exact exists_enabled (inv_of_reachable hreach) ht

/-- The device gives a status to one call, and the other one can go on. -/
theorem calls_end_two :
    let actions : List Action := [.call 0 .token, .call 1 .token, .grant 0, .respond 0 (.error 14)]
    ∃ s, run (step ed25519Provider) (init (clockAt 0) (clockAt 5)) actions = some s ∧
      (∀ t, (actions.filterMap Action.task).count t + (s.phase t).rank ≤ 4) ∧
      ∃ u, ∀ r response, ∃ a ∈ services u r response, (step ed25519Provider s a).isSome := by
  intro actions
  have hrun : (run (step ed25519Provider) (init (clockAt 0) (clockAt 5)) actions).isSome := rfl
  have hT : ∀ a ∈ actions, ∀ t, a.task = some t → t ∈ Finset.range 2 := by simp [actions, Action.task]
  obtain ⟨hcount, -, hon⟩ := calls_end .refl hT (Option.some_get hrun).symm
  exact ⟨_, (Option.some_get hrun).symm, hcount, hon 1 rfl⟩

end Enabled

/-! ## The order of the requests -/

/-- The call that asks the device. -/
def requestedBy : Nat × Event → Option Nat
  | (t, .requested _) => some t
  | _ => none

/-- The calls that asked the device, in order. -/
def requesters (log : List (Nat × Event)) : List Nat := log.filterMap requestedBy

/-- The call waits for the mutex. -/
def Phase.isWaiting : Phase → Bool
  | waiting _ => true
  | _ => false

/-- The calls before `t` that wait for the mutex. -/
def State.pending (s : State) (t : Nat) : List Nat := s.lock.pending Phase.isWaiting s.phase t

section Turns

variable {p : TokenProvider} {s s' : State} {a : Action} {t u : Nat} {c : Call} {es : List Event} {us : List Nat}

theorem requesters_append (log log' : List (Nat × Event)) :
    requesters (log ++ log') = requesters log ++ requesters log' := List.filterMap_append

theorem requesters_note (h : ∀ request, .requested request ∉ es) : requesters (note u es) = [] := by
  rw [requesters, note, List.filterMap_map, List.filterMap_eq_nil_iff]
  intro e he
  cases e with
  | requested request => exact absurd he (h request)
  | _ => rfl

theorem requested_not_mem_afterToken (k : AuthToken) (c : Call) (request : RequestAuthTokenRequest) :
    .requested request ∉ (p.afterToken k c).2 := by
  unfold afterToken
  split
  · simp
  · split <;> simp

/-- A turn of another call: one that asks the device in it is at the front of the pending ones. -/
def Yields (s s' : State) (t : Nat) : Prop :=
  ∃ xs, requesters s'.log = requesters s.log ++ xs ∧ (xs ++ s'.pending t).Sublist (s.pending t)

theorem yields_of_turn (ht : t ∈ s.lock.queue) (hne : u ≠ t)
    (h : s.lock.Turn Phase.isWaiting s.phase u s'.lock s'.phase us) (es : List Event)
    (hlog : s'.log = s.log ++ note u es)
    (hes : (requesters (note u es)).Sublist us) : Yields s s' t := by
  obtain ⟨-, hsub⟩ := h.pending ht hne
  refine ⟨requesters (note u es), by rw [hlog, requesters_append], ?_⟩
  exact (hes.append (List.Sublist.refl _)).trans hsub

/-- A step of another call takes it from the front of those that wait before `t`. -/
theorem yields_of_trans (hi : Inv p s) (ht : t ∈ s.lock.queue) (hne : a.task ≠ some t) (ha : Trans p s a s') :
    Yields s s' t := by
  have hout : ∀ u, ¬ (s.phase u).inQueue → u ∉ s.lock.queue := fun u hu hm => hu ((hi.serves.mem_queue u).1 hm)
  have hother : ∀ u, some u ≠ some t → u ≠ t := fun u hu hut => hu (congrArg some hut)
  have hwaits : ∀ {u : Nat} {c : Call}, s.phase u = .waiting c → (s.phase u).isWaiting = true := by
    intro u c hph
    rw [hph]
    rfl
  cases ha with
  | @call u c hph =>
    exact yields_of_turn ht (hother u hne) (.enter (p := Phase.waiting c) (hout u (by rw [hph]; exact id)))
      [.called c] rfl (List.Sublist.refl _)
  | @serve u c k hph hold hk hfresh =>
    refine yields_of_turn ht (hother u hne) (.depart (p := (p.afterToken k c).1) hold (hwaits hph))
      (.served k s.instantNow :: (p.afterToken k c).2) rfl ?_
    rw [requesters_note (by simpa using requested_not_mem_afterToken k c)]
    exact List.nil_sublist _
  | @request u c request hph hold hdue hreq =>
    exact yields_of_turn ht (hother u hne) (.serve (p := Phase.requesting c) hold (hwaits hph) rfl)
      [.requested request] rfl (List.Sublist.refl _)
  | @unsigned u c e hph hold hdue hreq =>
    exact yields_of_turn ht (hother u hne) (.depart (p := Phase.finished c (err e)) hold (hwaits hph))
      [.failed (err e)] rfl (List.nil_sublist _)
  | @obtain u c r k hph hk =>
    refine yields_of_turn ht (hother u hne) (.leave (p := (p.afterToken k c).1))
      (.obtained k :: (p.afterToken k c).2) rfl ?_
    rw [requesters_note (by simpa using requested_not_mem_afterToken k c)]
  | @fail u c r hph hno =>
    exact yields_of_turn ht (hother u hne) (.leave (p := Phase.finished c (p.answer s r))) [.failed (p.answer s r)]
      rfl (List.Sublist.refl _)
  | @inner u sent response hph =>
    exact yields_of_turn ht (hother u hne) (.stay (p := Phase.answered (okOr .transport response))
      (hout u (by rw [hph]; exact id))) [] (List.append_nil _).symm (List.Sublist.refl _)
  | @cancel u hph =>
    exact yields_of_turn ht (hother u hne) (.leave (p := Phase.cancelled)) [.dropped] rfl (List.Sublist.refl _)
  | tick => exact ⟨[], (List.append_nil _).symm, List.Sublist.refl _⟩

/-- **The mutex serves the calls in order.** While a call waits for it, the device is asked only by calls that waited
before it in the queue, by each once and in their order; those that have not asked yet still come before. -/
theorem requests_in_order {systemNow : SystemTime} {instantNow : Instant} {as : List Action}
    (h : Reachable (step p) anyStep (init systemNow instantNow) s) (hph : s.phase t = .waiting c)
    (has : ∀ a ∈ as, a.task ≠ some t) (hr : run (step p) s as = some s') :
    s'.phase t = .waiting c ∧
    ∃ us, requesters s'.log = requesters s.log ++ us ∧ (us ++ s'.pending t).Sublist (s.pending t) := by
  have hstep : ∀ s a s', (Inv p s ∧ s.phase t = .waiting c) → a.task ≠ some t → step p s a = some s' →
      (Inv p s' ∧ s'.phase t = .waiting c) ∧
      ∃ us, requesters s'.log = requesters s.log ++ us ∧ (us ++ s'.pending t).Sublist (s.pending t) := by
    rintro s a s' ⟨hi, hph⟩ hne ha
    have hmem : t ∈ s.lock.queue := (hi.serves.mem_queue t).2 (by rw [hph]; trivial)
    have htrans := trans_of_step ha
    exact ⟨⟨inv_of_trans hi htrans, ((rank_step htrans).1 t hne).trans hph⟩, yields_of_trans hi hmem hne htrans⟩
  obtain ⟨⟨-, hph'⟩, hturns⟩ := run_turns hstep ⟨inv_of_reachable h, hph⟩ has hr
  exact ⟨hph', hturns⟩

/-- Two calls wait while a third one asks the device. It gets a status, and the call between asks next. -/
theorem requests_in_order_two :
    let before : List Action := [.call 0 .token, .call 1 .token, .call 2 .token, .grant 0]
    let actions : List Action := [.respond 0 (.error 14), .grant 1]
    ∃ s s', run (step ed25519Provider) (init (clockAt 0) (clockAt 5)) before = some s ∧
      run (step ed25519Provider) s actions = some s' ∧ s.pending 2 = [1] ∧
      ∃ us, requesters s'.log = requesters s.log ++ us ∧ (us ++ s'.pending 2).Sublist (s.pending 2) := by
  intro before actions
  have hbefore : (run (step ed25519Provider) (init (clockAt 0) (clockAt 5)) before).isSome := rfl
  have hactions : (run (step ed25519Provider) (Option.get _ hbefore) actions).isSome := rfl
  have hreach : Reachable (step ed25519Provider) anyStep (init (clockAt 0) (clockAt 5)) (Option.get _ hbefore) :=
    .of_run (fun _ _ _ => trivial) (Option.some_get hbefore).symm
  obtain ⟨-, hturns⟩ := requests_in_order (t := 2) (c := .token) hreach rfl (by simp [actions, Action.task])
    (Option.some_get hactions).symm
  exact ⟨_, _, (Option.some_get hbefore).symm, (Option.some_get hactions).symm, rfl, hturns⟩

end Turns

end LzcSdk.TokenProvider
