import LzcSdk.Auth.TokenStory

/-!
# The safety of the token cache

**The cache is safe** (`token_cache_safe`), for every interleaving of calls: one request at a time is under way; a
request starts only when the cache is empty or its token is due; only an answer of the device with a token changes the
cache; a token is served only when more than the margin is left before its deadline. From the time the device gave a
token until the margin before its deadline, no call sends a request and every call gets this token.
-/

namespace LzcSdk.TokenProvider

open Outcome Lts History

variable {p : TokenProvider} {s s' : State} {a : Action} {t u : Nat} {k : AuthToken}

/-- A request of this call for a token is under way. -/
def InFlight (s : State) (t : Nat) : Prop := (s.phase t).isRequesting

/-- What a call does while this token serves: it sends no request, and gets no other token. -/
def Event.ServedBy (k : AuthToken) : Event → Prop
  | .served k' _ => k' = k
  | .requested _ => False
  | .obtained _ => False
  | .failed _ => False
  | _ => True

/-! ## One step -/

/-- Another call is where it was. -/
theorem inFlight_update {ph : Phase} (h : (Function.update s.phase t ph u).isRequesting) (hph : ¬ ph.isRequesting) :
    InFlight s u := by
  rcases eq_or_ne u t with rfl | hne
  · rw [Function.update_self] at h
    exact absurd h hph
  · rw [Function.update_of_ne hne] at h
    exact h

/-- A request starts with the mutex, when no token serves. -/
theorem start_of_trans (h : Trans p s a s') (hnot : ¬ InFlight s t) (hnow : InFlight s' t) (hk : s.cached = some k) :
    k.refreshAt ≤ s.instantNow := by
  cases h with
  | call | unsigned | fail | cancel => exact absurd (inFlight_update hnow id) hnot
  | inner => exact absurd (inFlight_update hnow id) hnot
  | @serve u c k' => exact absurd (inFlight_update hnow (not_isRequesting_afterToken k' c)) hnot
  | @obtain u c r k' => exact absurd (inFlight_update hnow (not_isRequesting_afterToken k' c)) hnot
  | request hph hold hdue hreq => exact of_decide_eq_true (hdue k hk)
  | tick => exact absurd hnow hnot

/-- Only an answer with a token changes the cache. -/
theorem stored_of_trans (h : Trans p s a s') (hne : s'.cached ≠ s.cached) :
    ∃ t response k, a = .respond t (.ok response) ∧
      AuthToken.fromResponse p.systemTimeTryFrom response s.systemNow s.instantNow = ok k ∧ s'.cached = some k := by
  cases h with
  | @obtain t c r k hph hk =>
    cases r with
    | error code => cases hk
    | ok response => exact ⟨t, response, k, rfl, hk, rfl⟩
  | _ => exact absurd rfl hne

/-- The wall clock does not go back. -/
theorem systemNow_of_trans (h : Trans p s a s') : s.systemNow.toNanos ≤ s'.systemNow.toNanos := by
  cases h with
  | tick hs =>
    rw [Timespec.toNanos_checkedAdd hs]
    omega
  | _ => exact le_rfl

theorem hasMargin_of_trans (h : Trans p s a s') (hm : k.HasMargin s'.systemNow) : k.HasMargin s.systemNow := by
  have hle := systemNow_of_trans h
  unfold AuthToken.HasMargin at hm ⊢
  omega

/-- A token that has its margin serves. -/
theorem Inv.fresh (h : Inv p s) (hk : s.cached = some k) :
    k.shouldRefresh s.instantNow = false ↔ k.HasMargin s.systemNow := by
  rw [← Bool.not_eq_true, (h.timed k hk).shouldRefresh_iff, not_not]

/-! ## While a token serves -/

/-- Since the token was stored, nothing but this token was served, and no request is under way. -/
structure Reigns (k : AuthToken) (log : List (Nat × Event)) (s : State) : Prop where
  cached : s.cached = some k
  quiet : ∀ t, ¬ InFlight s t
  told : ∃ more, s.log = log ++ more ∧ ∀ x ∈ more, x.2.ServedBy k

section Reigns

variable {log : List (Nat × Event)}

theorem servedBy_afterToken (c : Call) (e : Event) (he : e ∈ (p.afterToken k c).2) (k' : AuthToken) :
    e.ServedBy k' := by
  unfold afterToken at he
  split at he
  · cases he
  · split at he
    · cases List.mem_singleton.1 he
      trivial
    · cases he

/-- One call goes on without a request. -/
theorem Reigns.next {ph : Phase} {es : List Event} (h : Reigns k log s) (hcached : s'.cached = s.cached)
    (hphase : s'.phase = Function.update s.phase t ph) (hph : ¬ ph.isRequesting) (hlog : s'.log = s.log ++ note t es)
    (hes : ∀ e ∈ es, e.ServedBy k) : Reigns k log s' := by
  obtain ⟨more, hmore, hserved⟩ := h.told
  refine ⟨hcached.trans h.cached, fun u hu => ?_, more ++ note t es, ?_, fun x hx => ?_⟩
  · unfold InFlight at hu
    rw [hphase] at hu
    exact h.quiet u (inFlight_update hu hph)
  · rw [hlog, hmore, List.append_assoc]
  · rcases List.mem_append.1 hx with hx | hx
    · exact hserved x hx
    · obtain ⟨e, he, rfl⟩ := List.mem_map.1 hx
      exact hes e he

/-- While the token has its margin, every step keeps it the one that serves. -/
theorem Reigns.step (hi : Inv p s) (h : Reigns k log s) (hm : k.HasMargin s.systemNow) (ha : Trans p s a s') :
    Reigns k log s' := by
  have hfresh : k.shouldRefresh s.instantNow = false := (hi.fresh h.cached).2 hm
  cases ha with
  | call => exact h.next rfl rfl id rfl (by simp [Event.ServedBy])
  | @serve t c k' hph hold hk =>
    have hkk : k' = k := Option.some.inj (hk.symm.trans h.cached)
    refine h.next rfl rfl (not_isRequesting_afterToken k' c) rfl fun e he => ?_
    rcases List.mem_cons.1 he with rfl | he
    · exact hkk
    · exact servedBy_afterToken c e he k
  | request hph hold hdue => exact absurd (hdue k h.cached) (by simp [hfresh])
  | unsigned hph hold hdue => exact absurd (hdue k h.cached) (by simp [hfresh])
  | @obtain t c r k' hph => exact absurd (by rw [InFlight, hph]; trivial) (h.quiet t)
  | @fail t c r hph => exact absurd (by rw [InFlight, hph]; trivial) (h.quiet t)
  | @inner t sent response =>
    have hlog : s.log = s.log ++ note t [] := (List.append_nil _).symm
    exact h.next rfl rfl id hlog (by simp)
  | cancel => exact h.next rfl rfl id rfl (by simp [Event.ServedBy])
  | tick => exact ⟨h.cached, h.quiet, h.told⟩

/-- The token that the device just gave serves from now on. -/
theorem reigns_obtained (hi : Inv p s) {c : Call} (hph : s.phase t = .requesting c) :
    Reigns k ((s.store k).resume p t c k (.obtained k)).log ((s.store k).resume p t c k (.obtained k)) := by
  refine ⟨rfl, fun u hu => ?_, [], (List.append_nil _).symm, by simp⟩
  have hu' : InFlight s u := inFlight_update hu (not_isRequesting_afterToken k c)
  have hut : u = t := hi.serves.unique (by rw [hph]; trivial) hu'
  subst hut
  have hself : (Function.update s.phase u (p.afterToken k c).1 u).isRequesting := hu
  rw [Function.update_self] at hself
  exact not_isRequesting_afterToken k c hself

theorem reigns_respond (hi : Inv p s) {response : RequestAuthTokenResponse}
    (ha : step p s (.respond t (.ok response)) = some s')
    (hk : AuthToken.fromResponse p.systemTimeTryFrom response s.systemNow s.instantNow = ok k) :
    Reigns k s'.log s' := by
  have ht := trans_of_step ha
  cases ht with
  | obtain hph hk' =>
    cases hk'.symm.trans hk
    exact reigns_obtained hi hph
  | fail hph hno => exact absurd hk (hno k)

/-- A token that serves does so as long as it has its margin. -/
theorem reigns_of_reachable (hi : Inv p s) (h : Reigns k log s) (hr : Reachable (step p) anyStep s s')
    (hm : k.HasMargin s'.systemNow) : Reigns k log s' := by
  suffices hboth : Inv p s' ∧ (k.HasMargin s'.systemNow → Reigns k log s') from hboth.2 hm
  clear hm
  induction hr with
  | refl => exact ⟨hi, fun _ => h⟩
  | tail _ hs ih =>
    obtain ⟨a, -, ha⟩ := hs
    have ht := trans_of_step ha
    refine ⟨inv_of_trans ih.1 ht, fun hm => ?_⟩
    have hbefore := hasMargin_of_trans ht hm
    exact (ih.2 hbefore).step ih.1 hbefore ht

end Reigns

/-- **The token cache is safe.** For every interleaving of calls: one request at a time is under way; a request starts
only when the cache is empty or its token is due; only an answer of the device with a token changes the cache; a token
is served from the cache only with more than the margin left before its deadline. While a token that the device gave
has its margin, the cache holds it, no request is under way, and no call sends one or gets another token. -/
theorem token_cache_safe {systemNow : SystemTime} {instantNow : Instant}
    (h : Reachable (step p) anyStep (init systemNow instantNow) s) :
    (∀ t u, InFlight s t → InFlight s u → t = u) ∧
    (∀ a s', step p s a = some s' →
      (∀ t k, ¬ InFlight s t → InFlight s' t → s.cached = some k → k.refreshAt ≤ s.instantNow) ∧
      (s'.cached ≠ s.cached → ∃ t response k, a = .respond t (.ok response) ∧
        AuthToken.fromResponse p.systemTimeTryFrom response s.systemNow s.instantNow = ok k ∧ s'.cached = some k) ∧
      ∀ more, s'.log = s.log ++ more → ∀ t k now, (t, .served k now) ∈ more →
        s.cached = some k ∧ k.HasMargin s.systemNow) ∧
    ∀ t response k s' s'', step p s (.respond t (.ok response)) = some s' →
      AuthToken.fromResponse p.systemTimeTryFrom response s.systemNow s.instantNow = ok k →
      Reachable (step p) anyStep s' s'' → k.HasMargin s''.systemNow →
      s''.cached = some k ∧ (∀ u, ¬ InFlight s'' u) ∧
        ∃ more, s''.log = s'.log ++ more ∧ ∀ x ∈ more, x.2.ServedBy k := by
  have hi : Inv p s := inv_of_reachable h
  refine ⟨fun t u ht hu => hi.serves.unique hu ht, fun a s' ha => ⟨?_, stored_of_trans (trans_of_step ha), ?_⟩, ?_⟩
  · intro t k hnot hnow hk
    exact start_of_trans (trans_of_step ha) hnot hnow hk
  · intro more hmore t k now hmem
    obtain ⟨-, -, hk, -, hfresh⟩ := tells_of_mem (trans_of_step ha) hmore hmem
    exact ⟨hk, (hi.fresh hk).1 hfresh⟩
  · intro t response k s' s'' ha hk hr hm
    have hreigns : Reigns k s'.log s' := reigns_respond hi ha hk
    have hlast := reigns_of_reachable (inv_of_trans hi (trans_of_step ha)) hreigns hr hm
    exact ⟨hlast.cached, hlast.quiet, hlast.told⟩

/-! ## A device that grants a minute -/

/-- A normalised timestamp as a time. -/
def unixTime (t : Timestamp) : Option SystemTime :=
  if h : 0 ≤ t.nanos.toInt ∧ t.nanos.toInt < NANOS_PER_SEC then
    some ⟨t.seconds.toInt, t.nanos.toInt.toNat, t.seconds.le_toInt, t.seconds.toInt_lt, by omega⟩
  else none

/-- The bytes of a header value: visible ones and tabs. -/
def visible (b : UInt8) : Bool := (32 ≤ b && b != 127) || b == 9

def ed25519Provider : TokenProvider := ⟨⟨[1], [2], "app", .ed25519 id⟩, unixTime, visible⟩

def clockAt (sec : UInt16) : Timespec :=
  ⟨sec.toNat, 0, by omega, by have := sec.toNat_lt; omega, nanos_pos⟩

def seconds (secs : UInt16) : Duration := ⟨secs.toNat, 0, by have := secs.toNat_lt; omega, nanos_pos⟩

def minute : RequestAuthTokenResponse := ⟨"token-1", some ⟨60, 0⟩⟩

/-- Two calls, and the first one has sent its request. -/
def bothCalled : State :=
  Option.get (run (step ed25519Provider) (init (clockAt 0) (clockAt 5)) [.call 0 .token, .grant 0, .call 1 .token]) rfl

/-- The device has answered. -/
def minuteGranted : State := Option.get (step ed25519Provider bothCalled (.respond 0 (.ok minute))) (by decide +kernel)

def halfAMinuteLater : State := Option.get (step ed25519Provider minuteGranted (.tick (seconds 29))) (by decide +kernel)

/-- The other call gets the mutex. -/
def minuteServed : State := Option.get (step ed25519Provider halfAMinuteLater (.grant 1)) (by decide +kernel)

/-- The token of the first call serves the other one. -/
theorem token_cache_safe_minute :
    minuteServed.cached = some ⟨"token-1", clockAt 60, clockAt 35⟩ ∧ (∀ u, ¬ InFlight minuteServed u) ∧
      ∃ more, minuteServed.log = minuteGranted.log ++ more ∧
        ∀ x ∈ more, x.2.ServedBy ⟨"token-1", clockAt 60, clockAt 35⟩ := by
  have hcalled : Reachable (step ed25519Provider) anyStep (init (clockAt 0) (clockAt 5)) bothCalled :=
    .of_run (fun _ _ _ => trivial) (Option.some_get _).symm
  have hlater : Reachable (step ed25519Provider) anyStep minuteGranted minuteServed :=
    (Reachable.single (a := .tick (seconds 29)) (Option.some_get _).symm trivial).snoc (a := .grant 1) trivial
      (Option.some_get _).symm
  have htoken : AuthToken.fromResponse unixTime minute bothCalled.systemNow bothCalled.instantNow =
      ok ⟨"token-1", clockAt 60, clockAt 35⟩ := by decide +kernel
  exact (token_cache_safe hcalled).2.2 0 minute _ minuteGranted _ (Option.some_get _).symm htoken hlater
    (by decide +kernel)

end LzcSdk.TokenProvider
