import LzcSdk.Auth.Provider

/-!
# What the calls of a token provider have done

Where a call is determines what it has done, up to the token and the errors (`Story`). The invariant `Inv` puts this
together with the mutex, the cache and the clocks: every step keeps it (`inv_of_trans`), so it holds of every state
reached (`inv_of_reachable`). `Tells` says what each event of a step tells about the step.
-/

namespace LzcSdk.TokenProvider

open Outcome Lts History

variable (p : TokenProvider)

/-! ## What a call has done -/

/-- A call that has a token found it in the cache before its refresh time, or got it from the device. -/
inductive Acquires (c : Call) (k : AuthToken) : List Event → Prop where
  | served {now : Instant} (h : k.shouldRefresh now = false) : Acquires c k [.called c, .served k now]
  | obtained {request : RequestAuthTokenRequest} (h : p.credentials.authRequestMaterial = .ok request) :
    Acquires c k [.called c, .requested request, .obtained k]

/-- What a call did before it came where it is. -/
inductive Story : Phase → List Event → Prop where
  | idle : Story .idle []
  | waiting {c : Call} : Story (.waiting c) [.called c]
  | requesting {c : Call} {request : RequestAuthTokenRequest} (h : p.credentials.authRequestMaterial = .ok request) :
    Story (.requesting c) [.called c, .requested request]
  | unsigned {c : Call} {e : Error} (h : p.credentials.authRequestMaterial = .error e) :
    Story (.finished c (err e)) [.called c, .failed (err e)]
  | failed {c : Call} {request : RequestAuthTokenRequest} {o : Outcome Error AuthToken}
    (h : p.credentials.authRequestMaterial = .ok request) (ho : ∀ k, o ≠ ok k) :
    Story (.finished c o) [.called c, .requested request, .failed o]
  | returned {k : AuthToken} {tr : List Event} (h : Acquires p .token k tr) : Story (.finished .token (ok k)) tr
  | forwarding {k : AuthToken} {request sent : Request} {tr : List Event} (h : Acquires p (.request request) k tr)
    (hs : p.inject request k = .ok sent) : Story (.forwarding sent) (tr ++ [.forwarded sent])
  | unusable {k : AuthToken} {request : Request} {e : Error} {tr : List Event} (h : Acquires p (.request request) k tr)
    (hs : p.inject request k = .error e) : Story (.finished (.request request) (err e)) tr
  | answered {sent : Request} {o : Outcome Error Response} {tr : List Event} (h : Story (.forwarding sent) tr) :
    Story (.answered o) tr
  | cancelled {ph : Phase} {tr : List Event} (h : Story ph tr) (hp : ph.isAwaiting) :
    Story .cancelled (tr ++ [.dropped])

variable {p}

/-- A call with a token goes on. -/
theorem story_afterToken {k : AuthToken} {c : Call} {tr : List Event} (h : Acquires p c k tr) :
    Story p (p.afterToken k c).1 (tr ++ (p.afterToken k c).2) := by
  cases c with
  | token =>
    rw [afterToken, List.append_nil]
    exact .returned h
  | request request =>
    rw [afterToken]
    split
    · exact .forwarding h ‹_›
    · rw [List.append_nil]
      exact .unusable h ‹_›

/-! ## The invariant -/

namespace Phase

/-- The call is in the queue of the mutex. -/
def inQueue : Phase → Prop
  | waiting _ => True
  | requesting _ => True
  | _ => False

/-- The call has the mutex and waits for the device. -/
def isRequesting : Phase → Prop
  | requesting _ => True
  | _ => False

end Phase

/-- The token that the device gave. -/
def Event.gained : Event → Option AuthToken
  | obtained k => some k
  | _ => none

/-- A token from the cache is the last one that the device gave. -/
def Cached (before : List (Nat × Event)) (x : Nat × Event) : Prop :=
  ∀ k now, x.2 = .served k now → lastOf Event.gained before = some k

/-- The queue of the mutex agrees with the calls, the cache holds the last token that the device gave, every call has
the history of where it is, and the cached token has its refresh time. -/
structure Inv (p : TokenProvider) (s : State) : Prop where
  serves : s.lock.Serves s.phase Phase.inQueue Phase.isRequesting
  cached : s.cached = lastOf Event.gained s.log
  story : ∀ t, Story p (s.phase t) (of s.log t)
  served : Each Cached s.log
  timed : ∀ k, s.cached = some k → k.Timed s.systemNow s.instantNow

section Keep

variable {s s' : State} {a : Action} {t : Nat} {ph : Phase} {c : Call} {k : AuthToken}

theorem inv_init (systemNow : SystemTime) (instantNow : Instant) : Inv p (init systemNow instantNow) := by
  refine ⟨⟨fun _ => ⟨fun h => absurd h List.not_mem_nil, fun h => absurd h id⟩, fun _ h => absurd h id⟩, rfl,
    fun _ => .idle, each_nil, ?_⟩
  intro k h
  cases h

theorem not_inQueue_afterToken (k : AuthToken) (c : Call) : ¬ (p.afterToken k c).1.inQueue := by
  unfold afterToken
  split
  · exact id
  · split <;> exact id

theorem not_isRequesting_afterToken (k : AuthToken) (c : Call) : ¬ (p.afterToken k c).1.isRequesting := by
  unfold afterToken
  split
  · exact id
  · split <;> exact id

/-- What is not served needs no token in the cache. -/
theorem cached_of_not_served {es : List Event} (h : ∀ k now, .served k now ∉ es) (before : List (Nat × Event)) :
    Each (fun more => Cached (before ++ more)) (note t es) := by
  apply each_note
  rintro e he more k now hserved
  exact absurd (hserved ▸ he) (h k now)

theorem not_served_afterToken (k : AuthToken) (c : Call) (k' : AuthToken) (now : Instant) :
    .served k' now ∉ (p.afterToken k c).2 := by
  unfold afterToken
  split
  · simp
  · split <;> simp

theorem gained_afterToken (k : AuthToken) (c : Call) : (p.afterToken k c).2.filterMap Event.gained = [] := by
  unfold afterToken
  split
  · rfl
  · split <;> rfl

/-- One call goes to another phase and does something. -/
theorem Inv.next (h : Inv p s) (es : List Event)
    (hserves : s'.lock.Serves (Function.update s.phase t ph) Phase.inQueue Phase.isRequesting)
    (hphase : s'.phase = Function.update s.phase t ph) (hlog : s'.log = s.log ++ note t es)
    (hcached : s'.cached = ((es.filterMap Event.gained).getLast?).or s.cached) (hstory : Story p ph (of s.log t ++ es))
    (hserved : Each (fun before => Cached (s.log ++ before)) (note t es))
    (htimed : ∀ k, s'.cached = some k → k.Timed s'.systemNow s'.instantNow) : Inv p s' := by
  refine ⟨hphase ▸ hserves, ?_, ?_, ?_, htimed⟩
  · rw [hcached, hlog, lastOf_note, h.cached]
  · intro u
    rw [hphase, hlog]
    exact of_update h.story hstory u
  · rw [hlog, each_append]
    exact ⟨h.served, hserved⟩

theorem of_idle (h : Inv p s) (hph : s.phase t = .idle) : of s.log t = [] := by
  have hstory := h.story t
  rw [hph] at hstory
  generalize of s.log t = tr at hstory ⊢
  cases hstory
  rfl

/-- What a waiting call did. -/
theorem of_waiting (h : Inv p s) (hph : s.phase t = .waiting c) : of s.log t = [.called c] := by
  have hstory := h.story t
  rw [hph] at hstory
  generalize of s.log t = tr at hstory ⊢
  cases hstory
  rfl

/-- What a requesting call did. -/
theorem of_requesting (h : Inv p s) (hph : s.phase t = .requesting c) :
    ∃ request, p.credentials.authRequestMaterial = .ok request ∧ of s.log t = [.called c, .requested request] := by
  have hstory := h.story t
  rw [hph] at hstory
  generalize of s.log t = tr at hstory ⊢
  cases hstory with
  | requesting hreq => exact ⟨_, hreq, rfl⟩

/-- A call that leaves the mutex without a token. -/
theorem Inv.leave (h : Inv p s) {e : Event} (hw : ¬ ph.inQueue) (hr : ¬ ph.isRequesting) (hgained : e.gained = none)
    (hserved : ∀ k now, e ≠ .served k now) (hstory : Story p ph (of s.log t ++ [e])) :
    Inv p ((s.leave t ph).tell t [e]) := by
  refine h.next [e] (h.serves.release hw hr) rfl rfl ?_ hstory (cached_of_not_served ?_ _) h.timed
  · rw [List.filterMap_cons_none hgained]
    rfl
  · intro k now hmem
    exact hserved k now (List.mem_singleton.1 hmem).symm

/-- A call finds a token in the cache. -/
theorem Inv.serve (h : Inv p s) (hph : s.phase t = .waiting c) (hk : s.cached = some k)
    (hfresh : k.shouldRefresh s.instantNow = false) : Inv p (s.resume p t c k (.served k s.instantNow)) := by
  have hstory := story_afterToken (Acquires.served (p := p) (c := c) hfresh)
  refine h.next (.served k s.instantNow :: (p.afterToken k c).2)
    (h.serves.release (not_inQueue_afterToken k c) (not_isRequesting_afterToken k c)) rfl rfl ?_ ?_ ?_ h.timed
  · rw [List.filterMap_cons_none rfl, gained_afterToken]
    rfl
  · rw [of_waiting h hph]
    exact hstory
  · have hrest := cached_of_not_served (t := t) (not_served_afterToken (p := p) k c)
      (s.log ++ [(t, .served k s.instantNow)])
    simp only [List.append_assoc, List.singleton_append] at hrest
    refine each_cons.2 ⟨?_, hrest⟩
    rintro k' now ⟨⟩
    rw [List.append_nil, ← h.cached, hk]

/-- A token of the device, at these readings of the clocks. -/
theorem timed_answer {r : Except Nat RequestAuthTokenResponse} (hk : p.answer s r = ok k) :
    k.Timed s.systemNow s.instantNow := by
  cases r with
  | error code => cases hk
  | ok response => exact AuthToken.timed_fromResponse hk

/-- The device gives a token. -/
theorem Inv.obtain (h : Inv p s) {r : Except Nat RequestAuthTokenResponse} (hph : s.phase t = .requesting c)
    (hk : p.answer s r = ok k) : Inv p ((s.store k).resume p t c k (.obtained k)) := by
  obtain ⟨request, hreq, hof⟩ := of_requesting h hph
  have hstory := story_afterToken (Acquires.obtained (k := k) (c := c) hreq)
  refine h.next (.obtained k :: (p.afterToken k c).2)
    (h.serves.release (not_inQueue_afterToken k c) (not_isRequesting_afterToken k c)) rfl rfl ?_ ?_
    (cached_of_not_served ?_ _) ?_
  · have hgained : (Event.obtained k :: (p.afterToken k c).2).filterMap Event.gained = [k] :=
      congrArg (k :: ·) (gained_afterToken k c)
    rw [hgained]
    rfl
  · rw [hof]
    exact hstory
  · intro k' now hmem
    rcases List.mem_cons.1 hmem with hhead | htail
    · cases hhead
    · exact not_served_afterToken k c k' now htail
  · rintro k' ⟨⟩
    exact timed_answer hk

/-- Every step keeps the invariant. -/
theorem inv_of_trans (h : Inv p s) (ha : Trans p s a s') : Inv p s' := by
  cases ha with
  | @call t c hph =>
    refine h.next [.called c] (h.serves.acquire (p := Phase.waiting c) trivial id) rfl rfl rfl ?_
      (cached_of_not_served (by simp) _) h.timed
    rw [of_idle h hph]
    exact .waiting
  | serve hph hold hk hfresh => exact h.serve hph hk hfresh
  | @request t c request hph hold hdue hreq =>
    refine h.next [.requested request] (h.serves.keep (by rw [hph]; rfl) fun _ => hold) rfl rfl rfl ?_
      (cached_of_not_served (by simp) _) h.timed
    rw [of_waiting h hph]
    exact .requesting hreq
  | unsigned hph hold hdue hreq =>
    refine h.leave id id rfl (by simp) ?_
    rw [of_waiting h hph]
    exact .unsigned hreq
  | obtain hph hk => exact h.obtain hph hk
  | fail hph hno =>
    obtain ⟨request, hreq, hof⟩ := of_requesting h hph
    refine h.leave id id rfl (by simp) ?_
    rw [hof]
    exact .failed hreq hno
  | @inner t sent response hph =>
    refine h.next [] (h.serves.keep (by rw [hph]; rfl) fun hr => absurd hr id) rfl (List.append_nil _).symm rfl ?_
      (cached_of_not_served (by simp) _) h.timed
    have hstory := h.story t
    rw [hph] at hstory
    rw [List.append_nil]
    exact .answered hstory
  | @cancel t hph => exact h.leave id id rfl (by simp) (.cancelled (h.story t) hph)
  | tick hs hi =>
    refine ⟨h.serves, h.cached, h.story, h.served, fun k hk => (h.timed k hk).advance ?_ ?_⟩
    · rw [Timespec.toNanos_checkedAdd hi]
      omega
    · rw [Timespec.toNanos_checkedAdd hi, Timespec.toNanos_checkedAdd hs]
      omega

theorem inv_of_reachable {systemNow : SystemTime} {instantNow : Instant} {guard : State → Action → Prop}
    (h : Reachable (step p) guard (init systemNow instantNow) s) : Inv p s :=
  h.invariant (inv_init systemNow instantNow) fun _ _ _ hi _ ha => inv_of_trans hi (trans_of_step ha)

end Keep

/-! ## What an event tells -/

/-- What an event of a call tells about the step in which it happened. -/
def Tells (p : TokenProvider) (s : State) (a : Action) (s' : State) (t : Nat) : Event → Prop
  | .called c => a = .call t c
  | .served k now => a = .grant t ∧ (∃ c, s.phase t = .waiting c) ∧ s.cached = some k ∧ now = s.instantNow ∧
    k.shouldRefresh s.instantNow = false
  | .requested request => a = .grant t ∧ s'.lock = s.lock ∧ s'.log = s.log ++ [(t, .requested request)] ∧
    ∀ k, s.cached = some k → k.shouldRefresh s.instantNow = true
  | .obtained k => (∃ c, s.phase t = .requesting c) ∧ ∃ r, a = .respond t r ∧ p.answer s r = ok k ∧ s'.cached = some k
  | .failed _ => (∃ c, s.phase t = .requesting c) ∨
    a = .grant t ∧ ∀ k, s.cached = some k → k.shouldRefresh s.instantNow = true
  | _ => True

section Tells

variable {s s' : State} {a : Action}

theorem tells_afterToken {t : Nat} (k : AuthToken) (c : Call) (e : Event) (he : e ∈ (p.afterToken k c).2) :
    Tells p s a s' t e := by
  unfold afterToken at he
  split at he
  · cases he
  · split at he
    · cases List.mem_singleton.1 he
      trivial
    · cases he

/-- A step adds the events of one call to the history. -/
theorem tells_of_trans (h : Trans p s a s') :
    ∃ t es, s'.log = s.log ++ note t es ∧ ∀ e ∈ es, Tells p s a s' t e := by
  cases h with
  | @call t c hph => exact ⟨t, _, rfl, by simp [Tells]⟩
  | @serve t c k hph hold hk hfresh =>
    refine ⟨t, _, rfl, fun e he => ?_⟩
    rcases List.mem_cons.1 he with rfl | he
    · exact ⟨rfl, ⟨c, hph⟩, hk, rfl, hfresh⟩
    · exact tells_afterToken k c e he
  | @request t c request hph hold hdue hreq =>
    refine ⟨t, _, rfl, fun e he => ?_⟩
    cases List.mem_singleton.1 he
    exact ⟨rfl, rfl, rfl, hdue⟩
  | @unsigned t c e hph hold hdue =>
    refine ⟨t, _, rfl, fun e he => ?_⟩
    cases List.mem_singleton.1 he
    exact .inr ⟨rfl, hdue⟩
  | @obtain t c r k hph hk =>
    refine ⟨t, _, rfl, fun e he => ?_⟩
    rcases List.mem_cons.1 he with rfl | he
    · exact ⟨⟨c, hph⟩, r, rfl, hk, rfl⟩
    · exact tells_afterToken k c e he
  | @fail t c r hph =>
    refine ⟨t, _, rfl, fun e he => ?_⟩
    cases List.mem_singleton.1 he
    exact .inl ⟨c, hph⟩
  | @inner t => exact ⟨t, [], (List.append_nil _).symm, by simp⟩
  | @cancel t => exact ⟨t, _, rfl, by simp [Tells]⟩
  | tick => exact ⟨0, [], (List.append_nil _).symm, by simp⟩

/-- What the new events of a step tell. -/
theorem tells_of_mem {more : List (Nat × Event)} {t : Nat} {e : Event} (h : Trans p s a s')
    (hmore : s'.log = s.log ++ more) (hmem : (t, e) ∈ more) : Tells p s a s' t e := by
  obtain ⟨u, es, hlog, htells⟩ := tells_of_trans h
  obtain rfl := List.append_cancel_left (hmore.symm.trans hlog)
  obtain ⟨e', he, heq⟩ := List.mem_map.1 hmem
  cases heq
  exact htells _ he

end Tells

end LzcSdk.TokenProvider
