import LzcSdk.Auth.TokenCache

/-!
# Calls that wait for a token

The calls that wait for the mutex while another call requests a token check the cache when they get it. Whether they
find the token that was requested is a matter of time: the device chooses the deadline, and a token that was given
with less than the margin left is due at once.

**The waiting calls share the token** (`refresh_shared_iff`) when each of them gets the mutex with the margin left
before the deadline of the cached token; one that gets it later requests a token of its own. A device that grants ten
seconds is asked once by every call (`refresh_not_shared`).
-/

namespace LzcSdk.TokenProvider

open Outcome Lts History

variable {p : TokenProvider} {s s' : State} {a : Action} {t : Nat} {c : Call} {k : AuthToken}

/-- A call that waited when another one got a token sends no request, and returns that token or a later one that
another call got. -/
def SharesRefresh (log : List (Nat × Event)) : Prop :=
  ∀ before u k after t c, log = before ++ (u, .obtained k) :: after → of before t = [.called c] →
    (∀ request, (t, .requested request) ∉ after) ∧ (∀ o, (t, .failed o) ∉ after) ∧
    ∀ k' now, (t, .served k' now) ∈ after → k' = k ∨ ∃ v ≠ t, (v, .obtained k') ∈ after

/-- The call waited when another one got a token. -/
def WaitedThrough (log : List (Nat × Event)) (t : Nat) : Prop :=
  ∃ before u k after c, log = before ++ (u, .obtained k) :: after ∧ of before t = [.called c]

/-- A call that waited when another one got a token gets the mutex with the margin left before the deadline of the
cached token. -/
def inTime (s : State) : Action → Prop
  | .grant t => WaitedThrough s.log t → ∀ k, s.cached = some k → k.HasMargin s.systemNow
  | _ => True

/-! ## Calls in time -/

section InTime

variable {before rest : List (Nat × Event)} {u : Nat}

/-- The cache after a token was given holds that token or a later one. -/
theorem Inv.cached_since (h : Inv p s) (hlog : s.log = before ++ (u, .obtained k) :: rest) :
    ∃ k', s.cached = some k' ∧ (k' = k ∨ ∃ v, (v, .obtained k') ∈ rest) := by
  have hgained : Event.gained (.obtained k) = some k := rfl
  rw [h.cached, hlog, lastOf_split hgained]
  cases hlast : lastOf Event.gained rest with
  | none => exact ⟨k, rfl, .inl rfl⟩
  | some k' =>
    obtain ⟨v, e, hmem, he⟩ := exists_of_lastOf hlast
    cases e with
    | obtained k'' =>
      cases he
      exact ⟨k', rfl, .inr ⟨v, hmem⟩⟩
    | _ => cases he

/-- A call that waited through an answer and gets the mutex in time finds a token that is not due. -/
theorem Inv.fresh_of_inTime (h : Inv p s) (hg : inTime s (.grant t)) (hlog : s.log = before ++ (u, .obtained k) :: rest)
    (hw : of before t = [.called c]) : ∃ k', s.cached = some k' ∧ k'.shouldRefresh s.instantNow = false := by
  obtain ⟨k', hk', -⟩ := h.cached_since hlog
  exact ⟨k', hk', (h.fresh hk').2 (hg ⟨before, u, k, rest, c, hlog, hw⟩ k' hk')⟩

/-- A call that waited when a token was given and has sent no request since is not requesting. -/
theorem Inv.not_requesting (h : Inv p s) (hlog : s.log = before ++ (u, .obtained k) :: rest)
    (hw : of before t = [.called c]) (hquiet : ∀ request, (t, .requested request) ∉ rest) (c' : Call) :
    s.phase t ≠ .requesting c' := by
  intro hph
  obtain ⟨request, -, hof⟩ := of_requesting h hph
  have hmem : (t, .requested request) ∈ s.log := mem_of.1 (by simp [hof])
  rw [hlog, List.mem_append, List.mem_cons, ← mem_of, hw] at hmem
  rcases hmem with hmem | hmem | hmem
  · simp at hmem
  · cases hmem
  · exact hquiet request hmem

/-- A call that waits is not the one that gets a token, and nothing of it is told then. -/
theorem Inv.none_of_obtained {es : List Event} {after more : List (Nat × Event)} {w : Nat} (h : Inv p s)
    (htells : ∀ e ∈ es, Tells p s a s' w e) (hnew : note w es = more ++ (u, .obtained k) :: after)
    (hw : of (s.log ++ more) t = [.called c]) (e : Event) : (t, e) ∉ after := by
  obtain ⟨rfl, as, bs, hes, hmore, hafter⟩ := note_eq_split hnew
  obtain ⟨⟨c', hph⟩, -⟩ := htells (.obtained k) (hes ▸ by simp)
  obtain ⟨request, -, hof⟩ := of_requesting h hph
  have hne : t ≠ u := by
    rintro rfl
    rw [hmore, of_note_self, hof] at hw
    simp at hw
  intro he
  rw [hafter] at he
  obtain ⟨e', -, heq⟩ := List.mem_map.1 he
  exact hne (congrArg Prod.fst heq).symm

/-- A call in time does what the others did for it. -/
theorem sharesRefresh_step (hi : Inv p s) (h : SharesRefresh s.log) (hg : inTime s a) (ha : Trans p s a s') :
    SharesRefresh s'.log := by
  obtain ⟨w, es, hlog, htells⟩ := tells_of_trans ha
  intro before u k after t c hsplit hw
  rw [hlog] at hsplit
  rcases append_eq_split hsplit with ⟨rest, hold, hafter⟩ | ⟨more, hbefore, hnew⟩
  · -- The token was given before this step.
    obtain ⟨hrequested, hfailed, hserved⟩ := h before u k rest t c hold hw
    have hnot := hi.not_requesting hold hw hrequested
    have hnew : ∀ e, (t, e) ∈ after → (t, e) ∈ rest ∨ Tells p s a s' t e := by
      intro e he
      rw [hafter, List.mem_append] at he
      rcases he with he | he
      · exact .inl he
      · obtain ⟨e', he', heq⟩ := List.mem_map.1 he
        cases heq
        exact .inr (htells e he')
    refine ⟨fun request hmem => ?_, fun o hmem => ?_, fun k' now hmem => ?_⟩
    · rcases hnew _ hmem with hmem | ⟨rfl, -, -, hdue⟩
      · exact hrequested request hmem
      · obtain ⟨k', hk', hfresh⟩ := hi.fresh_of_inTime hg hold hw
        exact absurd (hdue k' hk') (by simp [hfresh])
    · rcases hnew _ hmem with hmem | ⟨c', hph⟩ | ⟨rfl, hdue⟩
      · exact hfailed o hmem
      · exact hnot c' hph
      · obtain ⟨k', hk', hfresh⟩ := hi.fresh_of_inTime hg hold hw
        exact absurd (hdue k' hk') (by simp [hfresh])
    · rcases hnew _ hmem with hmem | ⟨-, ⟨c', hph⟩, hk', -, -⟩
      · refine (hserved k' now hmem).imp_right ?_
        rintro ⟨v, hv, hmem⟩
        exact ⟨v, hv, hafter ▸ List.mem_append_left _ hmem⟩
      · obtain ⟨k'', hk'', hlast⟩ := hi.cached_since hold
        cases hk'.symm.trans hk''
        refine hlast.imp_right ?_
        rintro ⟨v, hlater⟩
        refine ⟨v, ?_, hafter ▸ List.mem_append_left _ hlater⟩
        rintro rfl
        have hown : (v, .obtained k') ∈ s.log := hold ▸ List.mem_append_right _ (List.mem_cons_of_mem _ hlater)
        rw [← mem_of, of_waiting hi hph] at hown
        simp at hown
  · -- The token is given in this step, to a call that does not wait.
    have hnone := hi.none_of_obtained htells hnew (hbefore ▸ hw)
    exact ⟨fun _ => hnone _, fun _ => hnone _, fun _ _ hmem => absurd hmem (hnone _)⟩

/-- A call that is late sends a request of its own, or fails to. -/
theorem not_sharesRefresh_of_late (hi : Inv p s) (ha : Trans p s a s') (hlate : ¬ inTime s a) :
    ¬ SharesRefresh s'.log := by
  intro h
  cases a with
  | grant t =>
    simp only [inTime, not_forall] at hlate
    obtain ⟨⟨before, u, k, after, c, hlog, hw⟩, k', hk', hmargin⟩ := hlate
    have hdue : ¬ k'.shouldRefresh s.instantNow = false := fun hfresh => hmargin ((hi.fresh hk').1 hfresh)
    have hsplit : ∀ es : List Event, s.log ++ note t es = before ++ (u, .obtained k) :: (after ++ note t es) := by
      intro es
      rw [hlog, List.append_assoc]
      rfl
    cases ha with
    | serve hph hold hk hfresh =>
      cases hk.symm.trans hk'
      exact hdue hfresh
    | @request t c request =>
      exact (h before u k _ t _ (hsplit [.requested request]) hw).1 request (List.mem_append_right _ List.mem_cons_self)
    | @unsigned t c e =>
      exact (h before u k _ t _ (hsplit [.failed (err e)]) hw).2.1 (err e) (List.mem_append_right _ List.mem_cons_self)
  | _ => exact hlate trivial

end InTime

/-- **The calls that wait share the token exactly when they are in time.** In every run in which each call that waited
when another one got a token gets the mutex with the margin left before the deadline of the cached token, such a call
sends no request and returns that token or a later one that another call got. A call that gets the mutex later breaks
this. -/
theorem refresh_shared_iff (systemNow : SystemTime) (instantNow : Instant) :
    (∀ s, Reachable (step p) inTime (init systemNow instantNow) s → SharesRefresh s.log) ∧
    ∀ s a s', Reachable (step p) anyStep (init systemNow instantNow) s → step p s a = some s' → ¬ inTime s a →
      ¬ SharesRefresh s'.log := by
  constructor
  · intro s h
    suffices hboth : Inv p s ∧ SharesRefresh s.log from hboth.2
    refine h.invariant (I := fun s => Inv p s ∧ SharesRefresh s.log) ⟨inv_init systemNow instantNow, ?_⟩ ?_
    · intro before u k after t c hlog
      exact absurd hlog.symm (by simp [init])
    · intro s a s' hs hg ha
      have ht := trans_of_step ha
      exact ⟨inv_of_trans hs.1 ht, sharesRefresh_step hs.1 hs.2 hg ht⟩
  · intro s a s' h ha hlate
    exact not_sharesRefresh_of_late (inv_of_reachable h) (trans_of_step ha) hlate

/-! ## A device that grants ten seconds -/

def tenSeconds : RequestAuthTokenResponse := ⟨"token-1", some ⟨10, 0⟩⟩

/-- The first of two calls has got a token for ten seconds. -/
def tenSecondsGranted : State :=
  Option.get (step ed25519Provider bothCalled (.respond 0 (.ok tenSeconds))) (by decide +kernel)

theorem tenSecondsGranted_log : tenSecondsGranted.log =
    [(0, .called .token), (0, .requested ⟨[1], [2], Text.bytes "app"⟩), (1, .called .token)] ++
      (0, .obtained ⟨"token-1", clockAt 10, clockAt 5⟩) :: [] := rfl

/-- The other call gets the mutex at once, and requests a token. -/
def requestedAgain : State := Option.get (step ed25519Provider tenSecondsGranted (.grant 1)) (by decide +kernel)

/-- The other call is served when the token is given for a minute, and requests one of its own when it is given for ten
seconds. -/
theorem refresh_shared_iff_minute : SharesRefresh minuteServed.log ∧ ¬ SharesRefresh requestedAgain.log := by
  have hcalled : (step ed25519Provider (init (clockAt 0) (clockAt 5)) (.call 0 .token)).isSome := rfl
  have hrequested : (step ed25519Provider (Option.get _ hcalled) (.grant 0)).isSome := rfl
  have hempty : (Option.get _ hcalled).cached = none := rfl
  have hboth : Reachable (step ed25519Provider) inTime (init (clockAt 0) (clockAt 5)) bothCalled :=
    ((Reachable.single (Option.some_get hcalled).symm trivial).snoc (a := .grant 0)
      (fun _ k hk => absurd (hempty.symm.trans hk) (by simp)) (Option.some_get hrequested).symm).snoc
      (a := .call 1 .token) trivial rfl
  have hgranted : Reachable (step ed25519Provider) inTime (init (clockAt 0) (clockAt 5)) minuteGranted :=
    hboth.snoc (a := .respond 0 (.ok minute)) trivial (Option.some_get _).symm
  have hlater : Reachable (step ed25519Provider) inTime (init (clockAt 0) (clockAt 5)) halfAMinuteLater :=
    hgranted.snoc (a := .tick (seconds 29)) trivial (Option.some_get _).symm
  have hcached : halfAMinuteLater.cached = some ⟨"token-1", clockAt 60, clockAt 35⟩ := rfl
  have hmargin : AuthToken.HasMargin ⟨"token-1", clockAt 60, clockAt 35⟩ halfAMinuteLater.systemNow := by
    decide +kernel
  have hserved : Reachable (step ed25519Provider) inTime (init (clockAt 0) (clockAt 5)) minuteServed := by
    refine hlater.snoc (a := .grant 1) (fun _ k hk => ?_) (Option.some_get _).symm
    cases hcached.symm.trans hk
    exact hmargin
  have hten : Reachable (step ed25519Provider) anyStep (init (clockAt 0) (clockAt 5)) tenSecondsGranted :=
    (hboth.mono fun _ _ _ => trivial).snoc (a := .respond 0 (.ok tenSeconds)) trivial (Option.some_get _).symm
  refine ⟨(refresh_shared_iff _ _).1 _ hserved,
    (refresh_shared_iff _ _).2 _ (.grant 1) _ hten (Option.some_get _).symm fun h => ?_⟩
  have hdue : ¬ AuthToken.HasMargin ⟨"token-1", clockAt 10, clockAt 5⟩ tenSecondsGranted.systemNow := by decide +kernel
  exact hdue (h ⟨_, 0, _, [], .token, tenSecondsGranted_log, rfl⟩ _ rfl)

/-- One refresh does not serve all the calls that wait for it. -/
theorem refresh_not_shared : ¬ ∀ (p : TokenProvider) (systemNow : SystemTime) (instantNow : Instant) (s : State),
    Reachable (step p) anyStep (init systemNow instantNow) s → SharesRefresh s.log := by
  intro h
  have hcalled : Reachable (step ed25519Provider) anyStep (init (clockAt 0) (clockAt 5)) bothCalled :=
    .of_run (fun _ _ _ => trivial) (Option.some_get _).symm
  have hrun : Reachable (step ed25519Provider) anyStep (init (clockAt 0) (clockAt 5)) requestedAgain :=
    (hcalled.snoc (a := .respond 0 (.ok tenSeconds)) trivial (Option.some_get _).symm).snoc (a := .grant 1) trivial
      (Option.some_get _).symm
  have hlog : requestedAgain.log = tenSecondsGranted.log ++ [(1, .requested ⟨[1], [2], Text.bytes "app"⟩)] := rfl
  rw [tenSecondsGranted_log, List.append_assoc] at hlog
  exact (h _ _ _ _ hrun _ 0 _ _ 1 .token hlog rfl).1 _ List.mem_cons_self

end LzcSdk.TokenProvider
