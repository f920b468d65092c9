import LzcSdk.Lib.Locked

/-!
# Calls under a lock are atomic

What a whole run of calls has done to the connection is what the programs that ended do one after another (`Serial`),
and then the portions of at most one more. **A call is atomic unless it is cancelled half way**
(`atomic_of_reachable`): the guard `neverHalfWay` admits every step except the cancellation of a call that has moved
bytes. Every answer is that of a program that ended or a refusal (`answered_of_reachable`); where no call starts over,
each call has one program (`onlyOnce_of_reachable`); and without cancellation the programs ended in the order in which
their calls got the lock (`inOrder_of_reachable`).
-/

namespace Locked

open ByteIo Outcome Lts

variable {κ ε α : Type} [FromIo ε] {svc : Service κ ε α} {w₀ : Wire} {s s' : State κ ε α}

/-! ## One program after another -/

/-- The programs of a log, run one after another, lead to the wire. -/
inductive Serial (svc : Service κ ε α) (w₀ : Wire) : List (Entry κ ε α) → Wire → Prop
  | nil : Serial svc w₀ [] w₀
  | snoc {log : List (Entry κ ε α)} {w w' : Wire} {t : Nat} {c : κ} {p : Prog ε α} {o : Outcome ε α}
    (h : Serial svc w₀ log w) (hp : svc.prepare c = ok p) (he : p.eval w = (o, w')) :
    Serial svc w₀ (log ++ [⟨t, c, o⟩]) w'

/-- Each ended program has run on some wire. -/
theorem Serial.exists_eval {log : List (Entry κ ε α)} {w : Wire} (h : Serial svc w₀ log w) {e : Entry κ ε α}
    (he : e ∈ log) : ∃ p w', svc.prepare e.call = ok p ∧ e.outcome = (p.eval w').1 := by
  induction h with
  | nil => cases he
  | @snoc log w w' t c p o h hp heval ih =>
    rcases List.mem_append.1 he with he | he
    · exact ih he
    · cases List.mem_singleton.1 he
      exact ⟨p, w, hp, by rw [heval]⟩

/-- The call that is in the middle of its program, with the bytes it has moved. -/
def State.runner (s : State κ ε α) : Option (Nat × κ × Nat × Waiting ε α) :=
  s.lock.holder.bind fun t =>
    match s.phase t with
    | .running c moved x => some (t, c, moved, x)
    | _ => none

omit [FromIo ε] in
theorem runner_eq_some (hd : Disciplined svc s) {t : Nat} {c : κ} {moved : Nat} {x : Waiting ε α} :
    s.runner = some (t, c, moved, x) ↔ s.phase t = .running c moved x := by
  constructor
  · intro h
    obtain ⟨u, -, hu⟩ := Option.bind_eq_some_iff.1 h
    split at hu
    · cases hu; assumption
    · cases hu
  · intro h
    rw [State.runner, hd.serves.holder t (by rw [h]; trivial), Option.bind_some, h]

omit [FromIo ε] in
theorem runner_eq_none (hd : Disciplined svc s) : s.runner = none ↔ ∀ t, ¬ (s.phase t).isRunning := by
  rw [Option.eq_none_iff_forall_ne_some]
  constructor
  · intro h t ht
    cases hp : s.phase t <;> rw [hp] at ht <;> first | exact ht | exact h _ ((runner_eq_some hd).2 hp)
  · rintro h ⟨t, c, moved, x⟩ hr
    exact h t (by rw [(runner_eq_some hd).1 hr]; trivial)

/-! ## What a step does to the connection -/

/-- The holder went on to an await point, or ended its program. -/
def Ran (s s' : State κ ε α) (t : Nat) (c : κ) (moved : Nat) : Progress ε α → Prop
  | .waiting x => s'.runner = some (t, c, moved, x) ∧ s'.log = s.log
  | .done o => s'.runner = none ∧ s'.log = s.log ++ [⟨t, c, o⟩]

/-- The effect of a step on the connection, the holder and the records. -/
inductive Effect (svc : Service κ ε α) (s : State κ ε α) : Action κ → State κ ε α → Prop
  | none {a : Action κ} {s' : State κ ε α} (hr : s'.runner = s.runner) (hw : s'.wire = s.wire) (hl : s'.log = s.log)
    (hg : s'.granted = s.granted) : Effect svc s a s'
  | began {s' : State κ ε α} {t : Nat} {c : κ} {p : Prog ε α} (hr : s.runner = .none) (hp : svc.prepare c = ok p)
    (hran : Ran s s' t c 0 p.settle) (hw : s'.wire = s.wire) (hg : s'.granted = s.granted ++ [(t, c)]) :
    Effect svc s (.grant t) s'
  | moved {s' : State κ ε α} {t : Nat} {c : κ} {moved : Nat} {x : Waiting ε α} {m : Move} {r : Progress ε α}
    (hr : s.runner = some (t, c, moved, x)) (hm : x.move s.wire m = some (r, s'.wire))
    (hran : Ran s s' t c (moved + m.size) r) (hg : s'.granted = s.granted) : Effect svc s (.move t m) s'
  | abandoned {s' : State κ ε α} {t : Nat} {c : κ} {moved : Nat} {x : Waiting ε α}
    (hr : s.runner = some (t, c, moved, x)) (hr' : s'.runner = .none) (hw : s'.wire = s.wire) (hl : s'.log = s.log)
    (hg : s'.granted = s.granted) : Effect svc s (.cancel t) s'

section Step

variable {t : Nat}

omit [FromIo ε] in
/-- A call that runs neither before nor after a step is not the holder of either. -/
theorem runner_update (hd : Disciplined svc s) (hd' : Disciplined svc s') {p : Phase κ ε α}
    (ht : ¬ (s.phase t).isRunning) (hp : ¬ p.isRunning) (hph : s'.phase = Function.update s.phase t p) :
    s'.runner = s.runner := by
  apply Option.ext
  rintro ⟨u, c, moved, x⟩
  rw [runner_eq_some hd, runner_eq_some hd', hph]
  rcases eq_or_ne u t with rfl | hne
  · rw [Function.update_self]
    exact ⟨fun h => absurd (h ▸ trivial) hp, fun h => absurd (h ▸ trivial) ht⟩
  · rw [Function.update_of_ne hne]

omit [FromIo ε] in
/-- After a step of the holder that ends its turn nobody holds the connection. -/
theorem runner_none (hd' : Disciplined svc s') {p : Phase κ ε α}
    (halone : ∀ u, (s.phase u).isRunning → u = t) (hp : ¬ p.isRunning)
    (hph : s'.phase = Function.update s.phase t p) : s'.runner = none := by
  rw [runner_eq_none hd']
  intro u hu
  rw [hph] at hu
  rcases eq_or_ne u t with rfl | hne
  · rw [Function.update_self] at hu; exact hp hu
  · rw [Function.update_of_ne hne] at hu; exact hne (halone u hu)

omit [FromIo ε] in
theorem ran_advance {c : κ} {moved : Nat} {r : Progress ε α}
    (halone : ∀ u, (s.phase u).isRunning → u = t) (hd' : Disciplined svc (s.advance svc t c moved r)) :
    Ran s (s.advance svc t c moved r) t c moved r := by
  cases r with
  | waiting x => exact ⟨(runner_eq_some hd').2 (Function.update_self ..), rfl⟩
  | done o => exact ⟨runner_none hd' halone (not_isRunning_after svc c o) rfl, rfl⟩

/-- The effect of every step. -/
theorem effect_of_trans {a : Action κ} (hd : Disciplined svc s) (ha : Trans svc s a s') : Effect svc s a s' := by
  have hd' := disciplined_step hd ha
  cases ha with
  | call hph => exact .none (runner_update hd hd' (by rw [hph]; exact id) (p := .entering _) id rfl) rfl rfl rfl
  | enter hph => exact .none (runner_update hd hd' (by rw [hph]; exact id) (p := .queued _ _) id rfl) rfl rfl rfl
  | refuse hph => exact .none (runner_update hd hd' (by rw [hph]; exact id) (p := .finished _ _) id rfl) rfl rfl rfl
  | leave hph => exact .none (runner_update hd hd' (by rw [hph]; exact id) (p := .cancelled _) id rfl) rfl rfl rfl
  | @grant t c p hph hh =>
    have hquiet : ∀ u, ¬ (s.phase u).isRunning := fun u hu => by
      cases Option.some.inj ((hd.serves.holder u hu).symm.trans hh)
      rw [hph] at hu
      exact hu
    refine .began ((runner_eq_none hd).2 hquiet) (hd.prepared t c p hph)
      (ran_advance (fun u hu => absurd hu (hquiet u)) hd') ?_ ?_ <;> cases p.settle <;> rfl
  | @move t c moved x m r w hph hm =>
    have hrun : (s.phase t).isRunning := by rw [hph]; trivial
    refine .moved ((runner_eq_some hd).2 hph) (r := r) ?_
      (ran_advance (fun u hu => hd.serves.unique hrun hu) hd') ?_
    · rw [hm]; cases r <;> rfl
    · cases r <;> rfl
  | @abandon t c moved x hph =>
    have hrun : (s.phase t).isRunning := by rw [hph]; trivial
    exact .abandoned ((runner_eq_some hd).2 hph)
      (runner_none hd' (fun u hu => hd.serves.unique hrun hu) (p := .cancelled _) id rfl) rfl rfl rfl

end Step

theorem disciplined_of_reachable {guard : State κ ε α → Action κ → Prop}
    (h : Reachable (step svc) guard (init w₀) s) : Disciplined svc s :=
  h.invariant (disciplined_init w₀) fun _ _ _ hi _ ha => disciplined_step hi (trans_of_step ha)

/-- What every effect keeps holds in every state reached. -/
theorem effect_invariant {guard : State κ ε α → Action κ → Prop} {I : State κ ε α → Prop} (h0 : I (init w₀))
    (hstep : ∀ s a s', I s → guard s a → Effect svc s a s' → I s')
    (h : Reachable (step svc) guard (init w₀) s) : I s := by
  refine (h.invariant (I := fun s => Disciplined svc s ∧ I s) ⟨disciplined_init w₀, h0⟩ fun s a s' hi hg ha => ?_).2
  exact ⟨disciplined_step hi.1 (trans_of_step ha), hstep s a s' hi.2 hg (effect_of_trans hi.1 (trans_of_step ha))⟩

/-! ## Atomicity -/

/-- The connection is as the ended programs left it, or one call is on the way through the next. -/
def Between (svc : Service κ ε α) (s : State κ ε α) (w : Wire) : Prop :=
  match s.runner with
  | none => s.wire = w
  | some (_, c, moved, x) => ∃ p, svc.prepare c = ok p ∧ x.eval s.wire = p.eval w ∧ Moved w s.wire moved

/-- Since `s₀` the programs that ended ran one after another, and what came after them is less than one more. -/
def Atomic (svc : Service κ ε α) (s₀ s : State κ ε α) : Prop :=
  ∃ log w, s.log = s₀.log ++ log ∧ Serial svc s₀.wire log w ∧ Between svc s w

/-- Cancel no call that has moved bytes. -/
def neverHalfWay (s : State κ ε α) (a : Action κ) : Prop :=
  ∀ t c moved x, a = .cancel t → s.phase t = .running c moved x → moved = 0

/-- Cancel no call. -/
def neverCancel (_ : State κ ε α) (a : Action κ) : Prop := ∀ t, a ≠ .cancel t

/-- The holder runs on with what remains of its program, or ends it. -/
theorem atomic_of_ran {s₀ : State κ ε α} {t : Nat} {c : κ} {p : Prog ε α} {moved : Nat} {r : Progress ε α} {w : Wire}
    {log : List (Entry κ ε α)} (hlog : s.log = s₀.log ++ log) (hserial : Serial svc s₀.wire log w)
    (hran : Ran s s' t c moved r) (hp : svc.prepare c = ok p) (he : r.eval s'.wire = p.eval w)
    (hmoved : Moved w s'.wire moved) : Atomic svc s₀ s' := by
  cases r with
  | waiting x =>
    refine ⟨log, w, hran.2.trans hlog, hserial, ?_⟩
    rw [Between, hran.1]
    exact ⟨p, hp, he, hmoved⟩
  | done o =>
    refine ⟨log ++ [⟨t, c, o⟩], s'.wire, ?_, hserial.snoc hp he.symm, ?_⟩
    · rw [hran.2, hlog, List.append_assoc]
    · rw [Between, hran.1]

theorem atomic_step {s₀ : State κ ε α} {a : Action κ} (h : Atomic svc s₀ s) (hg : ∀ t c moved x, a = .cancel t →
    s.runner = some (t, c, moved, x) → moved = 0) (ha : Effect svc s a s') : Atomic svc s₀ s' := by
  obtain ⟨log, w, hlog, hserial, hbetween⟩ := h
  cases ha with
  | none hr hw hl => exact ⟨log, w, hl.trans hlog, hserial, by rw [Between, hr, hw]; exact hbetween⟩
  | began hr hp hran hw =>
    rw [Between, hr] at hbetween
    have hw' := hw.trans hbetween
    exact atomic_of_ran hlog hserial hran hp ((eval_settle _ _).trans (congrArg _ hw')) (hw' ▸ Moved.refl w)
  | moved hr hm hran =>
    rw [Between, hr] at hbetween
    obtain ⟨p, hp, he, hmoved⟩ := hbetween
    exact atomic_of_ran hlog hserial hran hp ((eval_move hm).trans he) (hmoved.trans (moved_of_move hm))
  | abandoned hr hr' hw hl =>
    rw [Between, hr] at hbetween
    obtain ⟨-, -, -, hmoved⟩ := hbetween
    have hz := hg _ _ _ _ rfl hr
    subst hz
    refine ⟨log, w, hl.trans hlog, hserial, ?_⟩
    rw [Between, hr', hw]
    exact hmoved.eq

/-- **A call is atomic unless it is cancelled half way**, from any state in which nobody holds the connection. -/
theorem atomic_of_reachable {s₀ : State κ ε α} (hd : Disciplined svc s₀) (hquiet : s₀.runner = none)
    (h : Reachable (step svc) neverHalfWay s₀ s) : Atomic svc s₀ s := by
  have h0 : Atomic svc s₀ s₀ := ⟨[], s₀.wire, (List.append_nil _).symm, .nil, by rw [Between, hquiet]⟩
  refine (h.invariant (I := fun s => Disciplined svc s ∧ Atomic svc s₀ s) ⟨hd, h0⟩ fun s a s' hi hg ha => ?_).2
  refine ⟨disciplined_step hi.1 (trans_of_step ha), atomic_step hi.2 (fun t c moved x hc hr => ?_)
    (effect_of_trans hi.1 (trans_of_step ha))⟩
  exact hg t c moved x hc ((runner_eq_some hi.1).1 hr)

/-- After the cancellation of the call that held the connection, or while nobody did, nobody does. -/
theorem quiet_of_cancel {t : Nat} (hd : Disciplined svc s) (ha : Trans svc s (.cancel t) s')
    (hrun : (s.phase t).isRunning ∨ ∀ u, ¬ (s.phase u).isRunning) : ∀ u, ¬ (s'.phase u).isRunning := by
  have halone : ∀ u, (s.phase u).isRunning → u = t := fun u hu =>
    hrun.elim (fun ht => hd.serves.unique ht hu) fun hq => absurd hu (hq u)
  have hd' := disciplined_step hd ha
  cases ha with
  | leave hph => exact (runner_eq_none hd').1 (runner_none hd' halone (p := .cancelled _) id rfl)
  | abandon hph => exact (runner_eq_none hd').1 (runner_none hd' halone (p := .cancelled _) id rfl)

/-! ## Order -/

/-- The call of a program that ended, as `granted` has it. -/
def Entry.caller (e : Entry κ ε α) : Nat × κ := (e.task, e.call)

/-- The calls got the lock in the order in which their programs ended, and at most one more holds it. -/
def InOrder (s : State κ ε α) : Prop :=
  s.granted = s.log.map Entry.caller ++ s.runner.toList.map fun r => (r.1, r.2.1)

omit [FromIo ε] in
theorem inOrder_of_ran {t : Nat} {c : κ} {moved : Nat} {r : Progress ε α} (hran : Ran s s' t c moved r)
    (hg : s'.granted = s.log.map Entry.caller ++ [(t, c)]) : InOrder s' := by
  cases r <;> simp [InOrder, hran.1, hran.2, hg, Entry.caller]

/-- Without cancellation the programs end in the order in which their calls got the lock. -/
theorem inOrder_of_reachable (h : Reachable (step svc) neverCancel (init w₀) s) : InOrder s := by
  refine effect_invariant (I := InOrder) rfl (fun s a s' hi hguard ha => ?_) h
  cases ha with
  | none hr hw hl hg => rw [InOrder, hr, hl, hg]; exact hi
  | began hr hp hran hw hg => exact inOrder_of_ran hran (by rw [hg, hi, hr]; simp)
  | moved hr hm hran hg => exact inOrder_of_ran hran (by rw [hg, hi, hr]; rfl)
  | abandoned => exact absurd rfl (hguard _)

/-! ## Answers -/

/-- The refusal of a call that has no program. -/
def Refused (svc : Service κ ε α) (c : κ) (o : Outcome ε α) : Prop :=
  (∀ p, svc.prepare c ≠ ok p) ∧ o = svc.prepare c >>= fun _ => panicked

section Answers

variable {a : Action κ} {t : Nat} {c : κ} {o : Outcome ε α}

/-- A step ends one program at most, and that call leaves the queue with its outcome. -/
theorem log_of_trans (ha : Trans svc s a s') : s'.log = s.log ∨ ∃ t c o, s'.log = s.log ++ [⟨t, c, o⟩] ∧
    (s.phase t).inQueue ∧ s'.phase t = svc.after c o := by
  have advance : ∀ {s₁ : State κ ε α} {t c moved} (r : Progress ε α), s₁.log = s.log → s₁.phase = s.phase →
      (s.phase t).inQueue → (s₁.advance svc t c moved r).log = s.log ∨
        ∃ t' c' o, (s₁.advance svc t c moved r).log = s.log ++ [⟨t', c', o⟩] ∧ (s.phase t').inQueue ∧
          (s₁.advance svc t c moved r).phase t' = svc.after c' o := by
    rintro s₁ t c moved (x | o) hlog hph hq
    · exact .inr ⟨t, c, _, by rw [← hlog]; rfl, hq, Function.update_self ..⟩
    · exact .inl hlog
  cases ha with
  | call | enter | refuse | leave | abandon => exact .inl rfl
  | grant hph hh => exact advance _ rfl rfl (by rw [hph]; trivial)
  | move hph hm => exact advance _ rfl rfl (by rw [hph]; trivial)

/-- An answer is final. -/
theorem finished_stays (ha : Trans svc s a s') (ht : s.phase t = .finished c o) : s'.phase t = .finished c o := by
  have update : ∀ {u : Nat} (p : Phase κ ε α), s.phase u ≠ .finished c o →
      Function.update s.phase u p t = .finished c o := fun {u} p hu => by
    rw [Function.update_of_ne (fun htu => hu (by rw [← htu, ht])), ht]
  have advance : ∀ {s₁ : State κ ε α} {u c' moved} (r : Progress ε α), s₁.phase = s.phase →
      s.phase u ≠ .finished c o → (s₁.advance svc u c' moved r).phase t = .finished c o := by
    rintro s₁ u c' moved (x | o) hph hu <;> simp only [State.advance, State.set, hph] <;> exact update _ hu
  cases ha with
  | call hph | enter hph | refuse hph | leave hph | abandon hph => exact update _ (by simp [hph])
  | grant hph hh => exact advance _ rfl (by simp [hph])
  | move hph hm => exact advance _ rfl (by simp [hph])

omit [FromIo ε] in
/-- The answer that a program's outcome leads to is this outcome. -/
theorem eq_of_after_finished {c' : κ} {o' : Outcome ε α} (h : svc.after c' o' = .finished c o) : c' = c ∧ o' = o := by
  rcases o' with a | e | _ <;> simp only [Service.after] at h
  · split at h
    · cases h
    · cases h; exact ⟨rfl, rfl⟩
  · cases h; exact ⟨rfl, rfl⟩
  · cases h; exact ⟨rfl, rfl⟩

/-- Where an answer comes from: a program that ended and after which the call does not start over, or a refusal. -/
def Answered (svc : Service κ ε α) (s : State κ ε α) (t : Nat) (c : κ) (o : Outcome ε α) : Prop :=
  (⟨t, c, o⟩ ∈ s.log ∧ svc.after c o = .finished c o) ∨ Refused svc c o

theorem finished_of_trans (ha : Trans svc s a s') (ht : s'.phase t = .finished c o) :
    s.phase t = .finished c o ∨ Answered svc s' t c o := by
  have update : ∀ {u : Nat} {p : Phase κ ε α}, p ≠ .finished c o →
      Function.update s.phase u p t = .finished c o → s.phase t = .finished c o := fun {u p} hp hu => by
    rcases eq_or_ne t u with rfl | hne
    · rw [Function.update_self] at hu; exact absurd hu hp
    · rwa [Function.update_of_ne hne] at hu
  have advance : ∀ (s₁ : State κ ε α) {u c' moved} (r : Progress ε α), s₁.phase = s.phase →
      (s₁.advance svc u c' moved r).phase t = .finished c o →
      s.phase t = .finished c o ∨ Answered svc (s₁.advance svc u c' moved r) t c o := by
    rintro s₁ u c' moved (o' | x) hph hu <;> simp only [State.advance, State.set, hph] at hu ⊢
    · rcases eq_or_ne t u with rfl | hne
      · rw [Function.update_self] at hu
        obtain ⟨rfl, rfl⟩ := eq_of_after_finished hu
        exact .inr (.inl ⟨List.mem_append_right _ (List.mem_singleton_self _), hu⟩)
      · rw [Function.update_of_ne hne] at hu; exact .inl hu
    · exact .inl (update (by simp) hu)
  cases ha with
  | call | enter | leave | abandon => exact .inl (update (by simp) ht)
  | @refuse u c' o' hph hp ho =>
    simp only [State.set] at ht
    rcases eq_or_ne t u with rfl | hne
    · rw [Function.update_self] at ht; cases ht; exact .inr (.inr ⟨hp, ho⟩)
    · rw [Function.update_of_ne hne] at ht; exact .inl ht
  | @grant u c' p hph hh => exact advance { s with granted := s.granted ++ [(u, c')] } p.settle rfl ht
  | @move u c' moved x m r w hph hm => exact advance { s with wire := w } r rfl ht

/-- Every answer is that of a program that ended, or a refusal. -/
theorem answered_of_reachable {guard : State κ ε α → Action κ → Prop} (h : Reachable (step svc) guard (init w₀) s)
    (ht : s.phase t = .finished c o) : Answered svc s t c o := by
  refine h.invariant (I := fun s => s.phase t = .finished c o → Answered svc s t c o)
    (fun hi => nomatch hi) (fun s a s' ih _ ha ht => ?_) ht
  rcases finished_of_trans (trans_of_step ha) ht with ht | hans
  · refine (ih ht).imp_left fun hlog => ⟨?_, hlog.2⟩
    rcases log_of_trans (trans_of_step ha) with hl | ⟨t', c', o', hl, -⟩ <;> rw [hl]
    · exact hlog.1
    · exact List.mem_append_left _ hlog.1
  · exact hans

/-- Each call has one program, and its outcome is the answer. -/
structure OnlyOnce (s : State κ ε α) : Prop where
  answer : ∀ e ∈ s.log, s.phase e.task = .finished e.call e.outcome
  nodup : (s.log.map Entry.task).Nodup

/-- Where no call starts over, each call has one program. -/
theorem onlyOnce_of_reachable {guard : State κ ε α → Action κ → Prop} (hsvc : ∀ c a, svc.again c a = none)
    (h : Reachable (step svc) guard (init w₀) s) : OnlyOnce s := by
  refine h.invariant ⟨fun _ => (nomatch ·), List.nodup_nil⟩ fun s a s' ih _ ha => ?_
  have hstay : ∀ e ∈ s.log, s'.phase e.task = .finished e.call e.outcome :=
    fun e he => finished_stays (trans_of_step ha) (ih.answer e he)
  rcases log_of_trans (trans_of_step ha) with hl | ⟨t, c, o, hl, hq, hph⟩
  · exact ⟨hl ▸ hstay, hl ▸ ih.nodup⟩
  · have hafter : svc.after c o = .finished c o := by
      cases o <;> simp [Service.after, hsvc]
    refine ⟨fun e he => ?_, ?_⟩
    · rw [hl] at he
      rcases List.mem_append.1 he with he | he
      · exact hstay e he
      · cases List.mem_singleton.1 he
        exact hph.trans hafter
    · rw [hl, List.map_append, List.map_cons, List.map_nil]
      refine ih.nodup.append (List.nodup_singleton t) fun u hu ht => ?_
      obtain ⟨e, he, rfl⟩ := List.mem_map.1 hu
      have heq : e.task = t := List.mem_singleton.1 ht
      rw [← heq, ih.answer e he] at hq
      exact hq

end Answers

end Locked
