import LzcSdk.Lib.Progress
import LzcSdk.RemoteSocks.EndpointCache

/-!
# Commands come to their end

A command takes eight steps at most (`rank`), whatever the resolver and the network answer. As long as some command
waits, the mutex can be granted, or the resolver, a dial or the handshake of some command can go on with any answer
(`exists_enabled`): **no command waits for ever, and none needs its deadline to end** (`commands_end`).

**The mutex is fair** (`lookups_in_order`): while a command waits for it, the resolver is called only by commands that
were before it in the queue, by each once, and in the order of the queue.
-/

namespace LzcSdk.RemoteSocks.RemoteNetstack

open Outcome ByteIo Lts History

/-! ## Ranks -/

/-- The steps that a command has left at most. -/
def Phase.rank : Phase → Nat
  | idle => 8
  | waiting _ .first => 7
  | resolving _ .first => 6
  | dialing _ _ false => 5
  | waiting _ (.refresh _ _) => 4
  | resolving _ (.refresh _ _) => 3
  | dialing _ _ true => 2
  | exchanging _ _ => 1
  | finished _ _ => 0
  | cancelled _ => 0

section Rank

variable {b64 : Base64.Engine} {s s' : State} {t : Nat} {c : Command} {l : Lookup}

theorem rank_connectProxy (c : Command) (l : Lookup) (r : Except Error RemoteSocksEndpoint) :
    (connectProxy c l r).1.rank < (Phase.resolving c l).rank := by
  unfold connectProxy
  split
  · exact Nat.lt_succ_self 5
  · exact Nat.zero_lt_succ 5
  · exact Nat.zero_lt_succ 2
  · split
    · exact Nat.zero_lt_succ 2
    · exact Nat.lt_succ_self 2

theorem rank_resolving (c : Command) (l : Lookup) : (Phase.resolving c l).rank < (Phase.waiting c l).rank := by
  cases l with
  | first => exact Nat.lt_succ_self 6
  | refresh => exact Nat.lt_succ_self 3

theorem phase_set (s : State) (t : Nat) (p : Phase) : (s.set t p).phase t = p := Function.update_self ..

theorem rank_resume (s : State) (t : Nat) (c : Command) (l : Lookup) (r : Except Error RemoteSocksEndpoint) :
    ((s.resume t c l r).phase t).rank < (Phase.resolving c l).rank := by
  change ((s.set t (connectProxy c l r).1).phase t).rank < _
  rw [phase_set]
  exact rank_connectProxy c l r

theorem rank_locked (s : State) (t : Nat) (c : Command) (l : Lookup) :
    ((s.locked t c l).phase t).rank < (Phase.waiting c l).rank := by
  unfold State.locked
  split
  · exact Nat.lt_trans (rank_resume s t c l _) (rank_resolving c l)
  · change ((s.set t (.resolving c l)).phase t).rank < _
    rw [phase_set]
    exact rank_resolving c l

theorem rank_proxyEndpoint (s : State) (t : Nat) (c : Command) (l : Lookup) :
    ((s.proxyEndpoint t c l).phase t).rank ≤ (Phase.waiting c l).rank := by
  unfold State.proxyEndpoint
  dsimp only
  split
  · exact Nat.le_of_lt (rank_locked _ t c l)
  · change ((s.set t (.waiting c l)).phase t).rank ≤ _
    rw [phase_set]

/-- A command that waits for something has a step left. -/
theorem rank_pos {p : Phase} (h : p.awaiting = some c) : 0 < p.rank := by
  rcases p with _ | ⟨_, _ | _⟩ | ⟨_, _ | _⟩ | ⟨_, _, _ | _⟩ | _ | _ | _ <;>
    first | exact Nat.zero_lt_succ _ | cases h

theorem rank_step {act : Action} (ha : step b64 s act = some s') :
    (s'.phase act.task).rank < (s.phase act.task).rank := by
  cases trans_of_step ha with
  | @call t c hph =>
    have hle := rank_proxyEndpoint s t c .first
    change ((s.proxyEndpoint t c .first).phase t).rank < (s.phase t).rank
    rw [hph]
    exact Nat.lt_succ_of_le hle
  | @grant t c l hph =>
    change ((s.locked t c l).phase t).rank < (s.phase t).rank
    rw [hph]
    exact rank_locked s t c l
  | @resolved t c l r hph =>
    change ((State.resume _ t c l r).phase t).rank < (s.phase t).rank
    rw [hph]
    exact rank_resume _ t c l r
  | @connected t c endpoint again stream hph =>
    change ((s.set t (.exchanging c stream)).phase t).rank < (s.phase t).rank
    rw [hph, phase_set]
    cases again <;> simp [Phase.rank]
  | @refused t c endpoint e hph =>
    have hle := rank_proxyEndpoint (s.tell t [.refused endpoint e]) t c (.refresh endpoint (fromIo e))
    change ((State.proxyEndpoint _ t c _).phase t).rank < (s.phase t).rank
    rw [hph]
    exact Nat.lt_succ_of_le hle
  | @refusedAgain t c endpoint e hph =>
    change ((s.set t (.finished c _)).phase t).rank < (s.phase t).rank
    rw [hph, phase_set]
    exact Nat.zero_lt_succ 1
  | @exchanged t c stream hph =>
    change ((s.set t (.finished c _)).phase t).rank < (s.phase t).rank
    rw [hph, phase_set]
    exact Nat.zero_lt_succ 0
  | @deadline t c hc =>
    change ((s.set t (.finished c _)).phase t).rank < (s.phase t).rank
    rw [phase_set]
    exact rank_pos hc
  | @cancel t c hc =>
    change ((s.set t (.cancelled c)).phase t).rank < (s.phase t).rank
    rw [phase_set]
    exact rank_pos hc

/-- Every step brings its command nearer to its end, and no other one away from it. -/
theorem ranks (b64 : Base64.Engine) : Ranks (step b64) (fun a => some a.task) fun s t => (s.phase t).rank := by
  refine ⟨fun s a s' t ha htask => ?_, fun s a s' t ha hne => ?_⟩
  · cases htask
    exact rank_step ha
  · obtain ⟨es, htouch, -⟩ := touches_step ha
    rw [htouch.others t fun hta => hne (congrArg some hta.symm)]

end Rank

/-! ## No command is stuck -/

section Enabled

variable {b64 : Base64.Engine} {s : State} {t : Nat} {c : Command}

/-- What the mutex, the resolver and the network do for a command, with these answers. -/
def services (t : Nat) (r : Except Error RemoteSocksEndpoint) (stream : Except IoError Socket) : List Action :=
  [.grant t, .resolved t r, .dialed t stream, .exchanged t]

/-- As long as a command waits for something, some command can go on, whatever the answer is. -/
theorem exists_enabled (hi : Inv s) (hc : (s.phase t).awaiting = some c) :
    ∃ u, ∀ r stream, ∃ a ∈ services u r stream, (step b64 s a).isSome := by
  have hqueue : (s.phase t).inQueue → ∃ u, ∀ r stream, ∃ a ∈ services u r stream, (step b64 s a).isSome := by
    intro hq
    obtain ⟨u, hh, hu⟩ := hi.serves.exists_first hq
    refine ⟨u, fun r stream => ?_⟩
    cases hph : s.phase u with
    | waiting c l => exact ⟨.grant u, by simp [services], by simp [step, hph, hh]⟩
    | resolving c l => exact ⟨.resolved u r, by simp [services], by simp [step, hph]⟩
    | _ => rw [hph] at hu; cases hu
  cases hph : s.phase t with
  | waiting c l => exact hqueue (by rw [hph]; trivial)
  | resolving c l => exact hqueue (by rw [hph]; trivial)
  | dialing c endpoint again =>
    refine ⟨t, fun r stream => ⟨.dialed t stream, by simp [services], ?_⟩⟩
    cases stream <;> cases again <;> simp [step, hph]
  | exchanging c stream => exact ⟨t, fun r stream => ⟨.exchanged t, by simp [services], by simp [step, hph]⟩⟩
  | idle | finished | cancelled => rw [hph] at hc; cases hc

/-- **Commands come to their end.** For every interleaving of finitely many commands: a command takes eight steps at
most, the run is no longer than the steps that the commands have left, and where it ends some command waits only if one
can go on without a deadline, whatever the resolver and the network answer. -/
theorem commands_end {s s' : State} {as : List Action} {T : Finset Nat} (h : Reachable (step b64) anyStep init s)
    (hT : ∀ a ∈ as, a.task ∈ T) (hr : run (step b64) s as = some s') :
    (∀ t, (as.map Action.task).count t + (s'.phase t).rank ≤ (s.phase t).rank) ∧
    as.length ≤ ∑ t ∈ T, (s.phase t).rank ∧
    ∀ t, (s'.phase t).awaiting ≠ none → ∃ u, ∀ r stream, ∃ a ∈ services u r stream, (step b64 s' a).isSome := by
  have hreach : Reachable (step b64) anyStep init s' := h.append_run (fun _ _ _ => trivial) hr
  refine ⟨fun t => ?_, ?_, fun t ht => ?_⟩
  · have hcount := (ranks b64).count_add_le t hr
    simpa using hcount
  · have hlen := (ranks b64).length_le (T := T) (fun a ha t htask => Option.some.inj htask ▸ hT a ha) hr
    simpa using hlen
  · obtain ⟨c, hc⟩ := Option.ne_none_iff_exists'.1 ht
    exact exists_enabled (inv_of_reachable hreach) hc

/-- Two commands want the endpoint; the resolver fails for the first one, and the second can go on. -/
theorem commands_end_two :
    let actions : List Action := [.call 0 connect, .call 1 connect, .resolved 0 (.error .remoteSocksTimeout)]
    ∃ s, run (step Base64.standardNoPad) init actions = some s ∧
      (∀ t, (actions.map Action.task).count t + (s.phase t).rank ≤ (init.phase t).rank) ∧
      ∃ u, ∀ r stream, ∃ a ∈ services u r stream, (step Base64.standardNoPad s a).isSome := by
  intro actions
  have hrun : (run (step Base64.standardNoPad) init actions).isSome := rfl
  have hT : ∀ a ∈ actions, a.task ∈ Finset.range 2 := by simp [actions, Action.task]
  obtain ⟨hcount, -, hon⟩ := commands_end .refl hT (Option.some_get hrun).symm
  exact ⟨_, (Option.some_get hrun).symm, hcount, hon 1 (Option.some_ne_none connect)⟩

end Enabled

/-! ## The order of the lookups -/

/-- The command that calls the resolver. -/
def lookupBy : Nat × Event → Option Nat
  | (t, .lookup) => some t
  | _ => none

/-- The commands that called the resolver, in order. -/
def lookups (log : List (Nat × Event)) : List Nat := log.filterMap lookupBy

/-- The command waits for the mutex. -/
def Phase.isWaiting : Phase → Bool
  | waiting _ _ => true
  | _ => false

/-- The commands before `t` that wait for the mutex. -/
def State.pending (s : State) (t : Nat) : List Nat := s.lock.pending Phase.isWaiting s.phase t

section Turns

variable {b64 : Base64.Engine} {s s' : State} {t u : Nat} {c : Command} {l : Lookup} {es : List Event} {us : List Nat}

theorem lookups_append (log log' : List (Nat × Event)) : lookups (log ++ log') = lookups log ++ lookups log' :=
  List.filterMap_append

theorem lookups_note (h : .lookup ∉ es) : lookups (note u es) = [] := by
  rw [lookups, note, List.filterMap_map, List.filterMap_eq_nil_iff]
  intro e he
  cases e with
  | lookup => exact absurd he h
  | _ => rfl

theorem lookup_not_mem_connectProxy (c : Command) (l : Lookup) (r : Except Error RemoteSocksEndpoint) :
    .lookup ∉ (connectProxy c l r).2 := by
  unfold connectProxy
  split
  · simp
  · simp
  · simp
  · split <;> simp

/-- A turn of another command: those that call the resolver in it are at the front of the pending ones. -/
def Yields (s s' : State) (t : Nat) : Prop :=
  t ∈ s'.lock.queue ∧ ∃ xs, lookups s'.log = lookups s.log ++ xs ∧ (xs ++ s'.pending t).Sublist (s.pending t)

theorem yields_of_turn (ht : t ∈ s.lock.queue) (hne : u ≠ t)
    (h : s.lock.Turn Phase.isWaiting s.phase u s'.lock s'.phase us) (es : List Event)
    (hlog : s'.log = s.log ++ note u es)
    (hes : (lookups (note u es)).Sublist us) : Yields s s' t := by
  obtain ⟨ht', hsub⟩ := h.pending ht hne
  refine ⟨ht', lookups (note u es), by rw [hlog, lookups_append], ?_⟩
  exact (hes.append (List.Sublist.refl _)).trans hsub

/-- A command asks for the mutex that another one waits for. -/
theorem yields_proxyEndpoint (ht : t ∈ s.lock.queue) (hu : u ∉ s.lock.queue) (hes : .lookup ∉ es) :
    Yields s ((s.tell u es).proxyEndpoint u c l) t := by
  have hne : u ≠ t := fun hut => hu (hut ▸ ht)
  have hrest : (s.tell u es).proxyEndpoint u c l = (s.tell u es).request u c l :=
    if_neg (FairLock.holder_acquire_ne ht hu)
  rw [hrest]
  refine yields_of_turn ht hne (.enter (p := Phase.waiting c l) hu) es rfl ?_
  rw [lookups_note hes]

/-- A command gets the mutex. -/
theorem yields_locked (ht : t ∈ s.lock.queue) (hne : u ≠ t) (hph : s.phase u = .waiting c l)
    (hh : s.lock.holder = some u) : Yields s (s.locked u c l) t := by
  have hw : (s.phase u).isWaiting = true := by rw [hph]; rfl
  unfold State.locked
  split
  · rename_i endpoint _ _
    refine yields_of_turn ht hne (.depart (p := (connectProxy c l (.ok endpoint)).1) hh hw)
      ((connectProxy c l (.ok endpoint)).2) rfl ?_
    rw [lookups_note (lookup_not_mem_connectProxy c l _)]
    exact List.nil_sublist _
  · exact yields_of_turn ht hne (.serve (p := Phase.resolving c l) hh hw rfl) [.lookup] rfl (List.Sublist.refl _)

/-- The resolver answers a command. -/
theorem yields_resolved (ht : t ∈ s.lock.queue) (hne : u ≠ t) (r : Except Error RemoteSocksEndpoint) :
    Yields s (((s.store r).tell u [.found r]).resume u c l r) t := by
  have hlookup : .lookup ∉ .found r :: (connectProxy c l r).2 := by
    simpa using lookup_not_mem_connectProxy c l r
  have hstore : (s.store r).lock = s.lock ∧ (s.store r).phase = s.phase ∧ (s.store r).log = s.log := by
    cases r <;> exact ⟨rfl, rfl, rfl⟩
  obtain ⟨hlock, hphase, hlog⟩ := hstore
  have hturn : s.lock.Turn Phase.isWaiting s.phase u ((s.store r).lock.release u)
      (Function.update (s.store r).phase u (connectProxy c l r).1) [] := by
    rw [hlock, hphase]
    exact .leave
  refine yields_of_turn ht hne hturn (.found r :: (connectProxy c l r).2) ?_ ?_
  · change (s.store r).log ++ _ ++ _ = _
    rw [hlog, List.append_assoc]
    rfl
  · rw [lookups_note hlookup]

/-- A step of another command takes it from the front of those that wait before `t`. -/
theorem yields_step {act : Action} (hi : Inv s) (ht : t ∈ s.lock.queue) (hne : act.task ≠ t)
    (ha : step b64 s act = some s') : Yields s s' t := by
  have hout : ∀ u, ¬ (s.phase u).inQueue → u ∉ s.lock.queue := fun u hu hm => hu ((hi.serves.mem_queue u).1 hm)
  cases trans_of_step ha with
  | @call u c hph =>
    have hy : Yields s ((s.tell u []).proxyEndpoint u c .first) t :=
      yields_proxyEndpoint ht (hout u (by rw [hph]; exact id)) List.not_mem_nil
    rw [tell_nil] at hy
    exact hy
  | grant hph hh => exact yields_locked ht hne hph hh
  | @resolved u c l r hph => exact yields_resolved ht hne r
  | @connected u c endpoint again stream hph =>
    exact yields_of_turn ht hne (.stay (p := Phase.exchanging c stream) (hout u (by rw [hph]; exact id)))
      [.connected endpoint] rfl (List.Sublist.refl _)
  | @refused u c endpoint e hph => exact yields_proxyEndpoint ht (hout u (by rw [hph]; exact id)) (by simp)
  | @refusedAgain u c endpoint e hph =>
    exact yields_of_turn ht hne (.stay (p := Phase.finished c _) (hout u (by rw [hph]; exact id)))
      [.refused endpoint e] rfl (List.Sublist.refl _)
  | @exchanged u c stream hph =>
    exact yields_of_turn ht hne (.stay (p := Phase.finished c _) (hout u (by rw [hph]; exact id))) []
      (List.append_nil _).symm (List.Sublist.refl _)
  | @deadline u c hc =>
    exact yields_of_turn ht hne (.leave (p := Phase.finished c _)) [.elapsed] rfl (List.Sublist.refl _)
  | @cancel u c hc =>
    exact yields_of_turn ht hne (.leave (p := Phase.cancelled c)) [.dropped] rfl (List.Sublist.refl _)

/-- **The mutex serves the commands in order.** While a command waits for it, the resolver is called only by commands
that waited before it in the queue, by each once and in their order; those that have not called it yet still come
before. -/
theorem lookups_in_order {as : List Action} (h : Reachable (step b64) anyStep init s) (hph : s.phase t = .waiting c l)
    (has : ∀ a ∈ as, a.task ≠ t) (hr : run (step b64) s as = some s') :
    s'.phase t = .waiting c l ∧
    ∃ us, lookups s'.log = lookups s.log ++ us ∧ (us ++ s'.pending t).Sublist (s.pending t) := by
  have hstep : ∀ s a s', (Inv s ∧ s.phase t = .waiting c l) → a.task ≠ t → step b64 s a = some s' →
      (Inv s' ∧ s'.phase t = .waiting c l) ∧
      ∃ us, lookups s'.log = lookups s.log ++ us ∧ (us ++ s'.pending t).Sublist (s.pending t) := by
    rintro s a s' ⟨hi, hph⟩ hne ha
    have hmem : t ∈ s.lock.queue := (hi.serves.mem_queue t).2 (by rw [hph]; trivial)
    obtain ⟨es, htouch, -⟩ := touches_step ha
    exact ⟨⟨inv_step b64 hi ha, (htouch.others t hne.symm).trans hph⟩, (yields_step hi hmem hne ha).2⟩
  obtain ⟨⟨-, hph'⟩, hturns⟩ := run_turns hstep ⟨inv_of_reachable h, hph⟩ has hr
  exact ⟨hph', hturns⟩

/-- Two commands wait while a third one calls the resolver. It fails, and the command between calls it next. -/
theorem lookups_in_order_two :
    let before : List Action := [.call 0 connect, .call 1 connect, .call 2 connect]
    let actions : List Action := [.resolved 0 (.error .remoteSocksTimeout), .grant 1]
    ∃ s s', run (step Base64.standardNoPad) init before = some s ∧ run (step Base64.standardNoPad) s actions = some s' ∧
      s.pending 2 = [1] ∧ ∃ us, lookups s'.log = lookups s.log ++ us ∧ (us ++ s'.pending 2).Sublist (s.pending 2) := by
  intro before actions
  have hbefore : (run (step Base64.standardNoPad) init before).isSome := rfl
  have hactions : (run (step Base64.standardNoPad) (Option.get _ hbefore) actions).isSome := rfl
  have hreach : Reachable (step Base64.standardNoPad) anyStep init (Option.get _ hbefore) :=
    .of_run (fun _ _ _ => trivial) (Option.some_get hbefore).symm
  obtain ⟨-, hturns⟩ := lookups_in_order (t := 2) (c := connect) (l := .first) hreach rfl
    (by simp [actions, Action.task]) (Option.some_get hactions).symm
  exact ⟨_, _, (Option.some_get hbefore).symm, (Option.some_get hactions).symm, rfl, hturns⟩

end Turns

end LzcSdk.RemoteSocks.RemoteNetstack
