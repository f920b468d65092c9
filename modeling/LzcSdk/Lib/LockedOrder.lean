import LzcSdk.Lib.Locked

/-!
# The order of calls under a lock

A call asks for the lock when it enters its queue (`Action.asks`). The programs that ended, and then the calls that are
still in the queue, stand in the order in which their calls asked (`order_of_run`), whatever calls are cancelled. Where
no call starts over, each asks once (`nodup_asks`), so a record of the programs that ended is a record of the calls in
the order in which they asked (`filterMap_asks`).
-/

namespace Locked

open ByteIo Outcome Lts

/-- The call that an action puts into the queue of the lock, unless its program is refused. -/
def Action.asks {κ : Type} : Action κ → Option Nat
  | .enter t => some t
  | _ => none

section Order

variable {κ ε α : Type} [FromIo ε] {svc : Service κ ε α} {s s' : State κ ε α}

omit [FromIo ε] in
/-- The holder is the first of the queue: it ends its program, or it keeps its place. -/
theorem order_advance {t : Nat} (hh : s.lock.holder = some t) (c : κ) (moved : Nat) (r : Progress ε α) :
    (s.advance svc t c moved r).log.map Entry.task ++ (s.advance svc t c moved r).lock.queue =
      s.log.map Entry.task ++ s.lock.queue := by
  cases r with
  | waiting x => rfl
  | done o =>
    obtain ⟨rest, hq⟩ := List.head?_eq_some_iff.1 hh
    have hrest : (s.lock.release t).queue = rest := by
      rw [FairLock.queue_release, hq, List.erase_cons_head]
    change (s.log ++ [(⟨t, c, o⟩ : Entry κ ε α)]).map Entry.task ++ (s.lock.release t).queue = _
    rw [hrest, hq, List.map_append, List.append_assoc]
    rfl

/-- A step puts the call that asks behind the others, and changes the place of no other. -/
theorem order_step {a : Action κ} (hd : Disciplined svc s) (ha : Trans svc s a s') :
    (s'.log.map Entry.task ++ s'.lock.queue).Sublist
      (s.log.map Entry.task ++ s.lock.queue ++ a.asks.toList) := by
  have hleft : ∀ {xs ys : List Nat}, xs = ys → xs.Sublist (ys ++ a.asks.toList) := fun h =>
    h ▸ List.sublist_append_left _ _
  cases ha with
  | call hph => exact hleft rfl
  | @enter t c p hph hp =>
    have hout : t ∉ s.lock.queue := fun hm => by
      have hq := (hd.serves.mem_queue t).1 hm
      rw [hph] at hq
      exact hq
    change (s.log.map Entry.task ++ (s.lock.acquire t).queue).Sublist _
    rw [FairLock.queue_acquire hout, ← List.append_assoc]
    exact List.Sublist.refl _
  | refuse hph hp ho => exact hleft rfl
  | @grant t c p hph hh =>
    exact hleft (order_advance (s := { s with granted := s.granted ++ [(t, c)] }) hh c 0 p.settle)
  | @move t c moved x m r w hph hm =>
    have hh : s.lock.holder = some t := hd.serves.holder t (by rw [hph]; trivial)
    exact hleft (order_advance (s := { s with wire := w }) hh c _ r)
  | leave hph | abandon hph =>
    exact ((List.Sublist.refl _).append List.erase_sublist).trans (hleft rfl)

/-- The programs end in the order in which their calls asked for the lock, and the calls in the queue wait in it. -/
theorem order_of_run : ∀ {as : List (Action κ)} {s : State κ ε α}, Disciplined svc s → run (step svc) s as = some s' →
    (s'.log.map Entry.task ++ s'.lock.queue).Sublist
      (s.log.map Entry.task ++ s.lock.queue ++ as.filterMap Action.asks)
  | [], _, _, hr => by
    cases hr
    exact List.sublist_append_left _ _
  | a :: as, s, hd, hr => by
    obtain ⟨r, ha, hr⟩ := Option.bind_eq_some_iff.1 hr
    have hstep := order_step hd (trans_of_step ha)
    have hrest := order_of_run (disciplined_step hd (trans_of_step ha)) hr
    have hasks : (a :: as).filterMap Action.asks = a.asks.toList ++ as.filterMap Action.asks := by
      cases h : a.asks with
      | none => rw [List.filterMap_cons_none h]; rfl
      | some t => rw [List.filterMap_cons_some h]; rfl
    rw [hasks, ← List.append_assoc]
    exact hrest.trans (hstep.append (List.Sublist.refl _))

/-! ## Each call asks once -/

/-- The call has not asked for the lock yet. -/
def Phase.toAsk : Phase κ ε α → Prop
  | .idle => True
  | .entering _ => True
  | _ => False

omit [FromIo ε] in
theorem not_toAsk_after (hsvc : ∀ c a, svc.again c a = none) (c : κ) (o : Outcome ε α) : ¬ (svc.after c o).toAsk := by
  have hafter : svc.after c o = .finished c o := by
    cases o <;> simp [Service.after, hsvc]
  rw [hafter]
  exact id

/-- A call that still has to ask was about to before the step, and the step was not its request. -/
theorem toAsk_of_trans (hsvc : ∀ c a, svc.again c a = none) {a : Action κ} (ha : Trans svc s a s') {t : Nat}
    (ht : (s'.phase t).toAsk) : (s.phase t).toAsk ∧ a.asks ≠ some t := by
  have update : ∀ {u : Nat} {p : Phase κ ε α}, ¬ p.toAsk → (Function.update s.phase u p t).toAsk →
      (s.phase t).toAsk ∧ t ≠ u := fun {u p} hp hu => by
    rcases eq_or_ne t u with rfl | hne
    · rw [Function.update_self] at hu
      exact absurd hu hp
    · rw [Function.update_of_ne hne] at hu
      exact ⟨hu, hne⟩
  have advance : ∀ (s₁ : State κ ε α) {u c moved} (r : Progress ε α), s₁.phase = s.phase →
      ((s₁.advance svc u c moved r).phase t).toAsk → (s.phase t).toAsk := by
    rintro s₁ u c moved (o | x) hph hu <;> simp only [State.advance, State.set, hph] at hu
    · exact (update (not_toAsk_after hsvc c o) hu).1
    · exact (update id hu).1
  cases ha with
  | @call u c hph =>
    refine ⟨?_, (Option.some_ne_none t).symm⟩
    rcases eq_or_ne t u with rfl | hne
    · rw [hph]
      trivial
    · change (Function.update s.phase u _ t).toAsk at ht
      rwa [Function.update_of_ne hne] at ht
  | enter | refuse =>
    obtain ⟨h, hne⟩ := update (by exact id) ht
    exact ⟨h, fun he => hne (Option.some.inj he).symm⟩
  | @grant u c p hph hh =>
    exact ⟨advance { s with granted := s.granted ++ [(u, c)] } p.settle rfl ht, (Option.some_ne_none t).symm⟩
  | @move u c moved x m r w hph hm => exact ⟨advance { s with wire := w } r rfl ht, (Option.some_ne_none t).symm⟩
  | leave | abandon => exact ⟨(update (by exact id) ht).1, (Option.some_ne_none t).symm⟩

/-- A call asks while it has still to. -/
theorem toAsk_of_asks {a : Action κ} (ha : Trans svc s a s') {t : Nat} (h : a.asks = some t) : (s.phase t).toAsk := by
  cases ha with
  | enter hph | refuse hph =>
    cases h
    rw [hph]
    trivial
  | _ => cases h

/-- Where no call starts over, each asks for the lock once, and only those that have not asked can. -/
theorem nodup_asks (hsvc : ∀ c a, svc.again c a = none) : ∀ {as : List (Action κ)} {s : State κ ε α},
    run (step svc) s as = some s' →
    (as.filterMap Action.asks).Nodup ∧ ∀ t ∈ as.filterMap Action.asks, (s.phase t).toAsk
  | [], _, _ => ⟨List.nodup_nil, fun _ => nofun⟩
  | a :: as, s, hr => by
    obtain ⟨r, ha, hr⟩ := Option.bind_eq_some_iff.1 hr
    obtain ⟨hnodup, hask⟩ := nodup_asks hsvc hr
    have hbefore : ∀ t ∈ as.filterMap Action.asks, (s.phase t).toAsk ∧ a.asks ≠ some t :=
      fun t ht => toAsk_of_trans hsvc (trans_of_step ha) (hask t ht)
    cases h : a.asks with
    | none =>
      rw [List.filterMap_cons_none h]
      exact ⟨hnodup, fun t ht => (hbefore t ht).1⟩
    | some u =>
      rw [List.filterMap_cons_some h]
      refine ⟨List.nodup_cons.2 ⟨fun hu => (hbefore u hu).2 h, hnodup⟩, fun t ht => ?_⟩
      rcases List.mem_cons.1 ht with rfl | ht
      · exact toAsk_of_asks (trans_of_step ha) h
      · exact (hbefore t ht).1

end Order

/-- A record that says nothing of the elements left out is the same over a list and over a part of it. -/
theorem filterMap_of_sublist {β γ : Type} {f : β → Option γ} {xs ys : List β} (h : xs.Sublist ys) (hys : ys.Nodup)
    (hf : ∀ y ∈ ys, y ∉ xs → f y = none) : ys.filterMap f = xs.filterMap f := by
  induction h with
  | slnil => rfl
  | @cons xs ys y h ih =>
    obtain ⟨hy, hys⟩ := List.nodup_cons.1 hys
    rw [List.filterMap_cons_none (hf y List.mem_cons_self fun hm => hy (h.subset hm))]
    exact ih hys fun z hz => hf z (List.mem_cons_of_mem y hz)
  | @cons_cons xs ys y h ih =>
    obtain ⟨hy, hys⟩ := List.nodup_cons.1 hys
    have hrest : ys.filterMap f = xs.filterMap f := ih hys fun z hz hxs =>
      hf z (List.mem_cons_of_mem y hz) fun hm => (List.mem_cons.1 hm).elim (fun hzy => hy (hzy ▸ hz)) hxs
    cases hfy : f y with
    | none => rw [List.filterMap_cons_none hfy, List.filterMap_cons_none hfy, hrest]
    | some z => rw [List.filterMap_cons_some hfy, List.filterMap_cons_some hfy, hrest]

section Record

variable {κ ε α β : Type} [FromIo ε] {svc : Service κ ε α} {s : State κ ε α} {w₀ : Wire} {as : List (Action κ)}

/-- A record of the programs that ended is a record of the calls in the order in which they asked. -/
theorem filterMap_asks (hsvc : ∀ c a, svc.again c a = none) (hr : run (step svc) (init w₀) as = some s)
    {f : Nat → Option β} (hf : ∀ t, f t ≠ none → t ∈ s.log.map Entry.task) :
    (as.filterMap Action.asks).filterMap f = (s.log.map Entry.task).filterMap f := by
  have horder := order_of_run (disciplined_init w₀) hr
  have hsub : (s.log.map Entry.task).Sublist (as.filterMap Action.asks) :=
    (List.sublist_append_left _ _).trans horder
  refine filterMap_of_sublist hsub (nodup_asks hsvc hr).1 fun t _ ht => ?_
  by_contra h
  exact ht (hf t h)

end Record

end Locked
