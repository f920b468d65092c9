import LzcSdk.Auth.TokenCache

/-!
# The token of a request

A request through the authenticated service asks the provider for a token and goes to the inner channel with it. The
request for the token goes to the device without the service, so nobody waits for a token in order to get one.

**Every request that reaches the inner channel carries its token** (`token_injected`), once, and is as the caller made
it otherwise; a request without a token does not get there.
-/

namespace LzcSdk.TokenProvider

open Outcome Lts History

variable {p : TokenProvider} {s s' : State} {a : Action} {t u : Nat} {c : Call} {k : AuthToken}

/-! ## The header -/

/-- The token is in the headers once, and the rest of the request is as before. -/
structure Carries (request sent : Request) (k : AuthToken) : Prop where
  token : sent.headers.getAll AUTH_TOKEN_HEADER = [Text.bytes k.token]
  others : sent.headers.others AUTH_TOKEN_HEADER = request.headers.others AUTH_TOKEN_HEADER
  rest : sent.rest = request.rest

theorem carries_inject {request sent : Request} (h : p.inject request k = .ok sent) : Carries request sent k := by
  unfold inject headerValueTryFrom at h
  split at h
  · rename_i value hvalue
    split at hvalue <;> cases hvalue
    cases h
    exact ⟨Multimap.getAll_insert _ _ _, Multimap.others_insert _ _ _, rfl⟩
  · cases h

theorem headerValue_of_inject {request sent : Request} (h : p.inject request k = .ok sent) :
    p.headerValueTryFrom k.token ≠ none := by
  intro hnone
  rw [inject, hnone] at h
  cases h

/-! ## The history of a request -/

/-- A call that got to the inner channel had acquired a token, and did nothing more but to be dropped. -/
theorem Story.of_forwarded {ph : Phase} {tr : List Event} {sent : Request} (h : Story p ph tr)
    (hmem : .forwarded sent ∈ tr) : ∃ request k acquired rest, tr = acquired ++ .forwarded sent :: rest ∧
      Acquires p (.request request) k acquired ∧ p.inject request k = .ok sent ∧ ∀ e ∈ rest, e = .dropped := by
  induction h with
  | idle | waiting | requesting | unsigned | failed => simp at hmem
  | returned h => cases h <;> simp at hmem
  | unusable h => cases h <;> simp at hmem
  | @forwarding k request sent' tr h hs =>
    rcases List.mem_append.1 hmem with hmem | hmem
    · cases h <;> simp at hmem
    · cases List.mem_singleton.1 hmem
      exact ⟨request, k, tr, [], rfl, h, hs, by simp⟩
  | answered h ih => exact ih hmem
  | @cancelled ph tr h hp ih =>
    rcases List.mem_append.1 hmem with hmem | hmem
    · obtain ⟨request, k, acquired, rest, rfl, hk, hs, hrest⟩ := ih hmem
      refine ⟨request, k, acquired, rest ++ [.dropped], by simp, hk, hs, fun e he => ?_⟩
      exact (List.mem_append.1 he).elim (hrest e) List.mem_singleton.1
    · simp at hmem

/-- A call has this token: from the cache or from the device. -/
def HasToken (log : List (Nat × Event)) (t : Nat) (k : AuthToken) : Prop :=
  (∃ now, (t, .served k now) ∈ log) ∨ (t, .obtained k) ∈ log

/-- A request got to the inner channel with the token that its call got, which the device had given. -/
def Injected (p : TokenProvider) (log : List (Nat × Event)) (t : Nat) (sent : Request) : Prop :=
  ∃ request k acquired rest, of log t = acquired ++ .forwarded sent :: rest ∧
    Acquires p (.request request) k acquired ∧ Carries request sent k ∧ ∃ u, (u, .obtained k) ∈ log

/-- A token that a call acquired came from the device. -/
theorem Inv.exists_obtained (h : Inv p s) (hk : HasToken s.log t k) : ∃ u, (u, .obtained k) ∈ s.log := by
  rcases hk with ⟨now, hserved⟩ | hobtained
  · obtain ⟨before, after, hlog⟩ := List.append_of_mem hserved
    obtain ⟨u, e, hmem, he⟩ := exists_of_lastOf (h.served before _ after hlog k now rfl)
    cases e with
    | obtained k' =>
      cases he
      exact ⟨u, hlog ▸ List.mem_append_left _ hmem⟩
    | _ => cases he
  · exact ⟨t, hobtained⟩

theorem hasToken_of_acquires {tr rest : List Event} (h : Acquires p c k tr) (hof : of s.log t = tr ++ rest) :
    HasToken s.log t k := by
  cases h with
  | @served now h => exact .inl ⟨now, mem_of.1 (hof ▸ by simp)⟩
  | obtained h => exact .inr (mem_of.1 (hof ▸ by simp))

/-- A call that acquired a token and went on has this token and no other, and did not fail. -/
theorem Acquires.unique {acquired rest : List Event} {sent : Request} (h : Acquires p c k acquired)
    (hrest : ∀ e ∈ rest, e = .dropped) (hof : of s.log t = acquired ++ .forwarded sent :: rest) :
    (∀ o, (t, .failed o) ∉ s.log) ∧ ∀ k', HasToken s.log t k' → k' = k := by
  have hall : ∀ e, (t, e) ∈ s.log → e ∈ acquired ∨ e = .forwarded sent ∨ e = .dropped := by
    intro e he
    rw [← mem_of, hof, List.mem_append, List.mem_cons] at he
    exact he.imp_right (Or.imp_right (hrest e))
  constructor
  · intro o ho
    cases h <;> simpa using hall _ ho
  · rintro k' (⟨now, hk'⟩ | hk')
    · cases h with
      | @served now' h =>
        have hsame : k' = k ∧ now = now' := by simpa using hall _ hk'
        exact hsame.1
      | obtained h => simpa using hall _ hk'
    · cases h with
      | served h => simpa using hall _ hk'
      | obtained h => simpa using hall _ hk'

/-! ## Getting through -/

/-- The call left the mutex, and the others are where they were. -/
structure Leaves (s s' : State) (u : Nat) : Prop where
  lock : s'.lock = s.lock.release u
  others : ∀ v, v ≠ u → s'.phase v = s.phase v
  out : ¬ (s'.phase u).inQueue

theorem leaves_leave {ph : Phase} (h : ¬ ph.inQueue) (es : List Event) : Leaves s ((s.leave u ph).tell u es) u := by
  refine ⟨rfl, fun v hv => Function.update_of_ne hv _ _, ?_⟩
  show ¬ (Function.update s.phase u ph u).inQueue
  rw [Function.update_self]
  exact h

/-- Only these calls get the mutex, or an answer of the device. -/
def onlyOf (us : List Nat) (_ : State) : Action → Prop
  | .grant u => u ∈ us
  | .respond u _ => u ∈ us
  | _ => False

/-- The device can answer a request wherever the other calls are. -/
theorem isSome_respond (hph : s.phase t = .requesting c) (r : Except Nat RequestAuthTokenResponse) :
    (step p s (.respond t r)).isSome := by
  simp only [step, hph]
  split <;> rfl

/-- A request that the device refuses. -/
theorem leaves_refused {us : List Nat} (hu : u ∈ us) (hph : s.phase u = .requesting c) :
    ∃ s', Reachable (step p) (onlyOf us) s s' ∧ Leaves s s' u := by
  have hstep : step p s (.respond u (.error 0)) = some (s.fail u c (err (.grpcStatus 0))) := by
    simp [step, hph, answer]
  exact ⟨_, .single hstep hu, leaves_leave id _⟩

/-- The call with the mutex can leave it: it finds a token, or the device answers. -/
theorem exists_leaves {us : List Nat} (hi : Inv p s) (hu : u ∈ us) (hold : s.lock.holder = some u) :
    ∃ s', Reachable (step p) (onlyOf us) s s' ∧ Leaves s s' u := by
  have hq : (s.phase u).inQueue := (hi.serves.mem_queue u).1 (FairLock.mem_of_holder hold)
  cases hph : s.phase u with
  | waiting c =>
    have hstep : step p s (.grant u) = some (s.locked p u c) := by simp [step, hph, hold]
    obtain ⟨s', hs'⟩ : ∃ s', s' = s.locked p u c := ⟨_, rfl⟩
    rw [← hs'] at hstep
    cases trans_of_step hstep with
    | @serve _ c k => exact ⟨_, .single hstep hu, leaves_leave (not_inQueue_afterToken k c) _⟩
    | @request _ c request =>
      have hrequesting : ((s.set u (.requesting c)).tell u [.requested request]).phase u = .requesting c :=
        Function.update_self ..
      obtain ⟨s'', hreach, hl⟩ := leaves_refused (p := p) hu hrequesting
      refine ⟨s'', .cons hstep hu hreach, hl.lock, fun v hv => (hl.others v hv).trans ?_, hl.out⟩
      exact Function.update_of_ne hv _ _
    | unsigned => exact ⟨_, .single hstep hu, leaves_leave id _⟩
  | requesting c => exact leaves_refused hu hph
  | idle | forwarding | finished | answered | cancelled => rw [hph] at hq; exact absurd hq id

/-- A call in the queue gets through when the calls before it do. -/
theorem exists_through {us : List Nat} (hi : Inv p s) (ht : t ∈ us) (hsub : s.lock.ahead t ⊆ us)
    (hq : (s.phase t).inQueue) : ∃ s', Reachable (step p) (onlyOf us) s s' ∧ ¬ (s'.phase t).inQueue := by
  have hturn : ∃ r, Reachable (step p) (onlyOf us) s r ∧ (Inv p r ∧ r.lock.ahead t ⊆ us) ∧ r.lock.holder = some t := by
    refine FairLock.exists_holder (I := fun r => Inv p r ∧ r.lock.ahead t ⊆ us) ?_ ⟨hi, hsub⟩
      ((hi.serves.mem_queue t).2 hq)
    rintro s u ⟨hi, hsub⟩ hold hmem
    obtain ⟨r, hreach, hl⟩ := exists_leaves hi (hsub hmem) hold
    have hahead : s.lock.ahead t = u :: r.lock.ahead t :=
      hl.lock ▸ FairLock.ahead_release_holder hold (FairLock.ne_of_mem_ahead hmem)
    refine ⟨r, hreach, hl.lock, ?_, fun v hv => hsub (hahead ▸ List.mem_cons_of_mem u hv)⟩
    exact hreach.invariant hi fun _ _ _ hs _ ha => inv_of_trans hs (trans_of_step ha)
  obtain ⟨r, hreach, ⟨hir, -⟩, hold⟩ := hturn
  obtain ⟨s', hreach', hl⟩ := exists_leaves hir ht hold
  exact ⟨s', hreach.trans hreach', hl.out⟩

/-! ## Every request carries its token -/

/-- **Every request that reaches the inner channel carries its token.** For every interleaving of requests: a request
that reaches the inner channel has one token header, with the token that its call got, and is otherwise as the caller
made it; the device gave this token, and when it came from the cache it was not due. A call without a token, or with
one that is not a header value, does not get there. A request for a token calls nobody: it leaves the queue of the
mutex as it is, the device can answer it wherever the other calls are, and every call that waits gets through with the
calls before it. -/
theorem token_injected {systemNow : SystemTime} {instantNow : Instant}
    (h : Reachable (step p) anyStep (init systemNow instantNow) s) :
    (∀ t sent, (t, .forwarded sent) ∈ s.log → Injected p s.log t sent) ∧
    (∀ t, (∃ o, (t, .failed o) ∈ s.log) ∨ (∃ k, HasToken s.log t k ∧ p.headerValueTryFrom k.token = none) →
      ∀ sent, (t, .forwarded sent) ∉ s.log) ∧
    (∀ a s' more, step p s a = some s' → s'.log = s.log ++ more →
      (∀ t k now, (t, .served k now) ∈ more → s.cached = some k ∧ now = s.instantNow ∧ ¬ k.refreshAt ≤ now) ∧
      ∀ t request, (t, .requested request) ∈ more → s'.lock = s.lock ∧ more = [(t, .requested request)]) ∧
    (∀ t, InFlight s t → ∀ r, (step p s (.respond t r)).isSome) ∧
    ∀ t, (s.phase t).inQueue →
      ∃ s', Reachable (step p) (onlyOf (s.lock.ahead t ++ [t])) s s' ∧ ¬ (s'.phase t).inQueue := by
  have hi : Inv p s := inv_of_reachable h
  refine ⟨fun t sent hsent => ?_, fun t hnone sent hsent => ?_, fun a s' more ha hmore => ⟨?_, ?_⟩, ?_, ?_⟩
  · obtain ⟨request, k, acquired, rest, hof, hk, hs, -⟩ := (hi.story t).of_forwarded (mem_of.2 hsent)
    exact ⟨request, k, acquired, rest, hof, hk, carries_inject hs, hi.exists_obtained (hasToken_of_acquires hk hof)⟩
  · obtain ⟨request, k, acquired, rest, hof, hk, hs, hrest⟩ := (hi.story t).of_forwarded (mem_of.2 hsent)
    obtain ⟨hfailed, hother⟩ := hk.unique hrest hof
    rcases hnone with ⟨o, ho⟩ | ⟨k', hk', hvalue⟩
    · exact hfailed o ho
    · exact headerValue_of_inject hs (hother k' hk' ▸ hvalue)
  · intro t k now hmem
    obtain ⟨-, -, hk, rfl, hfresh⟩ := tells_of_mem (trans_of_step ha) hmore hmem
    exact ⟨hk, rfl, of_decide_eq_false hfresh⟩
  · intro t request hmem
    obtain ⟨-, hlock, hlog, -⟩ := tells_of_mem (trans_of_step ha) hmore hmem
    exact ⟨hlock, List.append_cancel_left (hmore.symm.trans hlog)⟩
  · intro t ht r
    cases hph : s.phase t with
    | requesting c => exact isSome_respond hph r
    | _ => rw [InFlight, hph] at ht; exact absurd ht id
  · intro t ht
    exact exists_through hi (List.mem_append_right _ List.mem_cons_self) (List.subset_append_left _ _) ht

/-- A request with two old tokens in its headers. -/
def staleRequest : Request :=
  ⟨⟨[(AUTH_TOKEN_HEADER, [1]), ("te", [2]), (AUTH_TOKEN_HEADER, [3])]⟩, [4]⟩

/-- It reaches the inner channel. -/
def staleForwarded : State :=
  Option.get (run (step ed25519Provider) (init (clockAt 0) (clockAt 5))
    [.call 0 (.request staleRequest), .grant 0, .respond 0 (.ok minute)]) (by decide +kernel)

/-- The new token takes the place of the old ones. -/
theorem token_injected_stale :
    Injected ed25519Provider staleForwarded.log 0
      ⟨⟨[(AUTH_TOKEN_HEADER, Text.bytes "token-1"), ("te", [2])]⟩, [4]⟩ := by
  have hrun : Reachable (step ed25519Provider) anyStep (init (clockAt 0) (clockAt 5)) staleForwarded :=
    .of_run (fun _ _ _ => trivial) (Option.some_get _).symm
  have hlast : staleForwarded.log.getLast? = some (0, .forwarded
      ⟨⟨[(AUTH_TOKEN_HEADER, Text.bytes "token-1"), ("te", [2])]⟩, [4]⟩) := rfl
  exact (token_injected hrun).1 0 _ (List.mem_of_getLast? hlast)

end LzcSdk.TokenProvider
