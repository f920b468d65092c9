import LzcSdk.RemoteSocks.EndpointCache

/-!
# Endpoints that cannot be reached

When commands come one after the other, the mutex is free whenever a command asks for it, so a command whose first dial
failed calls the resolver at once.

**A refused endpoint is not dialled again before the resolver has been asked** (`refused_endpoint_asks`), unless the
failed dial was a retry: it went to the endpoint that the resolver gave after the first dial had failed. A retry is
not followed by another call, and neither is a dial that the deadline cuts off: there the next command dials the cached
endpoint again (`unreached_endpoint_redialled`).
-/

namespace LzcSdk.RemoteSocks.RemoteNetstack

open Outcome ByteIo Lts History

/-! ## Commands one after the other -/

/-- Commands do not overlap: a command starts when no other one waits for anything. -/
def oneAtATime (s : State) : Action → Prop
  | .call _ _ => ∀ u, (s.phase u).awaiting = none
  | _ => True

/-- The failure of a first dial is followed by a call of the resolver. -/
def Asks (log : List (Nat × Event)) : Prop :=
  ∀ xs t endpoint e ys, log = xs ++ (t, .refused endpoint e) :: ys → dials (of xs t) = [endpoint] →
    ∃ zs, ys = (t, .lookup) :: zs

/-- One command waits for something at a time, and asks after a failure. -/
structure Sequential (s : State) : Prop where
  inv : Inv s
  alone : ∀ t u, (s.phase t).awaiting ≠ none → (s.phase u).awaiting ≠ none → u = t
  asks : Asks s.log

section Sequential

variable {b64 : Base64.Engine} {s s' : State} {t : Nat} {c : Command} {es : List Event}

/-- A history goes on: the old failures have their calls, and the new ones get theirs. -/
theorem asks_append {log : List (Nat × Event)} (h : Asks log)
    (hes : ∀ as endpoint e bs, es = as ++ .refused endpoint e :: bs → dials (of log t ++ as) = [endpoint] →
      ∃ cs, bs = .lookup :: cs) : Asks (log ++ note t es) := by
  intro xs u endpoint e ys hsplit hdials
  rcases append_eq_split hsplit with ⟨rest, hlog, hys⟩ | ⟨more, hxs, hnote⟩
  · obtain ⟨zs, hzs⟩ := h xs u endpoint e rest hlog hdials
    exact ⟨zs ++ note t es, by rw [hys, hzs]; rfl⟩
  · obtain ⟨rfl, as, bs, has, hmore, hys⟩ := note_eq_split hnote
    rw [hxs, hmore, of_note_self] at hdials
    obtain ⟨cs, hcs⟩ := hes as endpoint e bs has hdials
    exact ⟨note u cs, by rw [hys, hcs]; rfl⟩

theorem asks_quiet {log : List (Nat × Event)} (h : Asks log) (hq : Quiet es) : Asks (log ++ note t es) := by
  apply asks_append h
  rintro as endpoint e bs rfl
  exact absurd (List.mem_append_right _ List.mem_cons_self) (hq endpoint e)

/-- A step of a command that waits for something, or of the only one. -/
theorem Sequential.next (h : Sequential s) (hi : Inv s') (ht : Touches s s' t es)
    (hw : (s.phase t).awaiting ≠ none ∨ ∀ u, (s.phase u).awaiting = none) (hasks : Asks s'.log) : Sequential s' := by
  have hall : ∀ u, (s'.phase u).awaiting ≠ none → u = t := by
    intro u hu
    by_contra hne
    rw [ht.others u hne] at hu
    rcases hw with hw | hnone
    · exact hne (h.alone t u hw hu)
    · exact hu (hnone u)
  exact ⟨hi, fun u v hu hv => (hall v hv).trans (hall u hu).symm, hasks⟩

/-- The only command finds the mutex free. -/
theorem Sequential.queue_eq_nil (h : Sequential s) (hw : (s.phase t).awaiting ≠ none) (hq : ¬ (s.phase t).inQueue) :
    s.lock.queue = [] := by
  rw [List.eq_nil_iff_forall_not_mem]
  intro u hu
  have hin : (s.phase u).inQueue := (h.inv.serves.mem_queue u).1 hu
  have hawait : (s.phase u).awaiting ≠ none := by
    cases hph : s.phase u <;> rw [hph] at hin <;> first | exact absurd hin id | exact Option.some_ne_none _
  exact hq (h.alone t u hw hawait ▸ hin)

/-- The first dial fails: the mutex is free, so the resolver is called at once. -/
theorem proxyEndpoint_of_free (hq : s.lock.queue = []) (endpoint : RemoteSocksEndpoint) (e : Error) :
    s.proxyEndpoint t c (.refresh endpoint e) =
      ((s.request t c (.refresh endpoint e)).set t (.resolving c (.refresh endpoint e))).tell t [.lookup] :=
  if_pos (FairLock.holder_acquire_of_free hq)

theorem touches_refused (hq : s.lock.queue = []) (endpoint : RemoteSocksEndpoint) (e : IoError) :
    Touches s ((s.tell t [.refused endpoint e]).proxyEndpoint t c (.refresh endpoint (fromIo e))) t
      [.refused endpoint e, .lookup] := by
  have htell : Touches s (s.tell t [.refused endpoint e]) t [.refused endpoint e] := ⟨rfl, fun _ _ => rfl⟩
  have hfree : (s.tell t [.refused endpoint e]).lock.queue = [] := hq
  rw [proxyEndpoint_of_free hfree]
  refine htell.trans ⟨rfl, fun u hu => ?_⟩
  exact (Function.update_of_ne hu _ _).trans (Function.update_of_ne hu _ _)

theorem length_dials_of_story {endpoint : RemoteSocksEndpoint} {tr : List Event}
    (h : Story (.dialing c endpoint true) tr) : (dials tr).length = 2 := by
  cases h with
  | dialingAgain h =>
    rw [dials_append, h.spent.1]
    rfl

/-- The first dial fails, and the command asks the resolver. -/
theorem asks_refused {endpoint : RemoteSocksEndpoint} {log : List (Nat × Event)} (h : Asks log) (e : IoError) :
    Asks (log ++ note t [.refused endpoint e, .lookup]) := by
  apply asks_append h
  intro as endpoint' e' bs has _
  rcases as with _ | ⟨a, _ | ⟨b, as⟩⟩
  · cases has
    exact ⟨[], rfl⟩
  · cases has
  · simp at has

/-- The second dial fails. -/
theorem asks_refused_again {endpoint : RemoteSocksEndpoint} {log : List (Nat × Event)} (h : Asks log) (e : IoError)
    (htwo : (dials (of log t)).length = 2) : Asks (log ++ note t [.refused endpoint e]) := by
  apply asks_append h
  intro as endpoint' e' bs has hdials
  rcases as with _ | ⟨a, as⟩
  · rw [List.append_nil] at hdials
    rw [hdials] at htwo
    cases htwo
  · simp at has

/-- Commands that do not overlap stay so, and the one that waits asks when its first dial fails. -/
theorem sequential_step {act : Action} (h : Sequential s) (hg : oneAtATime s act) (ha : step b64 s act = some s') :
    Sequential s' := by
  have hi : Inv s' := inv_step b64 h.inv ha
  obtain ⟨es, ht, hw, hq⟩ := touches_step ha
  have hone : (s.phase act.task).awaiting ≠ none ∨ ∀ u, (s.phase u).awaiting = none := by
    rcases hw with hw | ⟨c, hact⟩
    · exact .inl hw
    · rw [hact] at hg
      exact .inr hg
  apply h.next hi ht hone
  rcases hq with hq | ⟨c, endpoint, again, e, hact, hph⟩
  · rw [ht.log]
    exact asks_quiet h.asks hq
  · rw [hact] at ha
    generalize act.task = t at *
    simp only [step, hph] at ha
    cases again <;> cases ha
    · have hw : (s.phase t).awaiting ≠ none := awaiting_of_phase hph rfl
      rw [(touches_refused (h.queue_eq_nil hw (hph ▸ id)) endpoint e).log]
      exact asks_refused h.asks e
    · exact asks_refused_again h.asks e (length_dials_of_story (hph ▸ h.inv.story t))

theorem sequential_of_reachable (h : Reachable (step b64) oneAtATime init s) : Sequential s := by
  apply h.invariant (I := Sequential)
  · refine ⟨inv_init, fun _ _ hn => absurd rfl hn, ?_⟩
    intro xs t endpoint e ys hlog
    exact absurd hlog.symm (by simp [init])
  · intro s act s' hs hg ha
    exact sequential_step hs hg ha

/-! ## A refused endpoint -/

/-- The command dials for the second time, the endpoint that the resolver gave after the first dial had failed. -/
def Retries (tr : List Event) (endpoint : RemoteSocksEndpoint) : Prop :=
  ∃ earlier first e, first ≠ endpoint ∧
    tr = earlier ++ [.dial first, .refused first e, .lookup, .found (.ok endpoint), .dial endpoint]

/-- A dial that fails is the first or the second one of its command. -/
def Refusal (before : List Event) (x : Event) : Prop :=
  ∀ endpoint e, x = .refused endpoint e → dials before = [endpoint] ∨ Retries before endpoint

theorem each_refusal_of_quiet (hq : Quiet es) (before : List Event) :
    Each (fun more => Refusal (before ++ more)) es := by
  apply each_of_forall
  rintro x hx more endpoint e rfl
  exact absurd hx (hq endpoint e)

theorem FirstLookup.quiet {endpoint : RemoteSocksEndpoint} {tr : List Event} (h : FirstLookup endpoint tr) :
    Quiet tr := by
  cases h <;> simp [Quiet]

/-- The first dial fails. -/
theorem each_refusal_first {endpoint : RemoteSocksEndpoint} {tr : List Event} (h : FirstLookup endpoint tr)
    (e : IoError)
    (hq : Quiet es) : Each Refusal (tr ++ .dial endpoint :: .refused endpoint e :: es) := by
  rw [each_append, each_cons, each_cons]
  refine ⟨each_refusal_of_quiet h.quiet [], ?_, ?_, ?_⟩
  · rintro endpoint' e' ⟨⟩
  · rintro endpoint' e' ⟨⟩
    rw [dials_append, h.spent.1]
    exact .inl rfl
  · have hrest := each_refusal_of_quiet hq (tr ++ [.dial endpoint, .refused endpoint e])
    simpa using hrest

theorem each_refusal_snoc {tr : List Event} {x : Event} (h : Each Refusal tr) (hx : Refusal tr x) :
    Each Refusal (tr ++ [x]) := by
  rw [each_append, each_cons, List.append_nil]
  exact ⟨h, hx, each_nil⟩

/-- Wherever a command is, its failed dials are its first and its second one. -/
theorem refusals_of_story {p : Phase} {tr : List Event} (h : Story p tr) : Each Refusal tr := by
  induction h with
  | idle | waiting => exact each_nil
  | resolving | unresolved => exact each_refusal_of_quiet (by simp [Quiet]) []
  | dialing h => exact each_append.2 ⟨each_refusal_of_quiet h.quiet [], each_refusal_of_quiet (by simp [Quiet]) _⟩
  | connected h => exact each_append.2 ⟨each_refusal_of_quiet h.quiet [], each_refusal_of_quiet (by simp [Quiet]) _⟩
  | waitingAgain h | resolvingAgain h | notRefreshed h => exact each_refusal_first h _ (by simp [Quiet])
  | dialingAgain h hne | connectedAgain h hne => exact each_refusal_first h _ (by simp [Quiet])
  | @refusedAgain c first refreshed e e' tr h hne =>
    have hquiet : Quiet [.lookup, .found (.ok refreshed), .dial refreshed] := by simp [Quiet]
    have hsnoc := each_refusal_snoc (x := .refused refreshed e') (each_refusal_first h e hquiet)
      fun _ _ hx => by cases hx; exact .inr ⟨tr, first, e, hne.symm, rfl⟩
    rw [List.append_assoc] at hsnoc
    exact hsnoc
  | exchanged h ih => exact ih
  | elapsed h hp ih => exact each_refusal_snoc ih fun _ _ hx => by cases hx
  | dropped h hp ih => exact each_refusal_snoc ih fun _ _ hx => by cases hx

/-- A second command may start when the first has ended. -/
theorem reachable_thenAgain {as : List Action} (htask : ∀ a ∈ as, a.task = 0) (hg : ∀ s, ∀ a ∈ as, oneAtATime s a)
    (hrun : (run (step Base64.standardNoPad) init (.call 0 connect :: as)).isSome)
    (hend : ((Option.get _ hrun).phase 0).awaiting = none)
    (hstep : (step Base64.standardNoPad (Option.get _ hrun) (.call 1 connect)).isSome) :
    Reachable (step Base64.standardNoPad) oneAtATime init (Option.get _ hstep) := by
  have hr := (Option.some_get hrun).symm
  have hidle : ∀ u, ((Option.get _ hrun).phase u).awaiting = none := by
    intro u
    rcases eq_or_ne u 0 with rfl | hu
    · exact hend
    · rw [others_of_run hu (List.forall_mem_cons.2 ⟨rfl, htask⟩) hr]
      rfl
  obtain ⟨r, ha, hr⟩ := Option.bind_eq_some_iff.1 hr
  exact ((Reachable.single ha fun _ => rfl).append_run hg hr).snoc (a := .call 1 connect) hidle
    (Option.some_get hstep).symm

/-- **A refused endpoint is not dialled again before the resolver has been asked.** In every run of commands one after
the other: when a dial failed and a command dials the endpoint again, the resolver has been called in between, unless
the failed dial was a retry, of the endpoint that the resolver gave after the first dial of that command had failed. -/
theorem refused_endpoint_asks {xs ys zs : List (Nat × Event)} {u : Nat} {endpoint : RemoteSocksEndpoint} {e : IoError}
    (h : Reachable (step b64) oneAtATime init s)
    (hlog : s.log = xs ++ (t, .refused endpoint e) :: ys ++ (u, .dial endpoint) :: zs) :
    (∃ v, (v, .lookup) ∈ ys) ∨ Retries (of xs t) endpoint := by
  have hs : Sequential s := sequential_of_reachable h
  rw [List.append_assoc, List.cons_append] at hlog
  have hof : of s.log t = of xs t ++ .refused endpoint e :: of (ys ++ (u, .dial endpoint) :: zs) t := by
    rw [hlog, of_append, of_cons_self]
  rcases refusals_of_story (hs.inv.story t) (of xs t) _ _ hof endpoint e rfl with hfirst | hretry
  · obtain ⟨rest, hrest⟩ := hs.asks xs t endpoint e _ hlog hfirst
    cases ys with
    | nil => cases hrest
    | cons y ys =>
      obtain ⟨rfl, -⟩ := List.cons.inj hrest
      exact .inl ⟨t, List.mem_cons_self⟩
  · exact .inr hretry

/-- The resolver gives the endpoint again after the first dial, and the next command tries it once more. -/
theorem refused_endpoint_asks_unchanged :
    ∃ s ys, Reachable (step Base64.standardNoPad) oneAtATime init s ∧
      s.log = note 0 [.lookup, .found (.ok (endpointAt 1080)), .dial (endpointAt 1080)] ++
        (0, .refused (endpointAt 1080) connectionRefused) :: ys ++ (1, .dial (endpointAt 1080)) :: [] ∧
      ((∃ v, (v, .lookup) ∈ ys) ∨ Retries
        (of (note 0 [.lookup, .found (.ok (endpointAt 1080)), .dial (endpointAt 1080)]) 0) (endpointAt 1080)) := by
  have hrun : (run (step Base64.standardNoPad) init (.call 0 connect :: [.resolved 0 (.ok (endpointAt 1080)),
    .dialed 0 (.error connectionRefused), .resolved 0 (.ok (endpointAt 1080))])).isSome := rfl
  have hstep : (step Base64.standardNoPad (Option.get _ hrun) (.call 1 connect)).isSome := rfl
  have hreach := reachable_thenAgain (by simp [Action.task]) (by simp [oneAtATime]) hrun rfl hstep
  have hlog : (Option.get _ hstep).log =
      note 0 [.lookup, .found (.ok (endpointAt 1080)), .dial (endpointAt 1080)] ++
        (0, .refused (endpointAt 1080) connectionRefused) :: note 0 [.lookup, .found (.ok (endpointAt 1080))] ++
        (1, .dial (endpointAt 1080)) :: [] := rfl
  exact ⟨_, _, hreach, hlog, refused_endpoint_asks hreach hlog⟩

end Sequential

/-! ## Dials that nobody follows up -/

/-- After its dial a command did not connect: the dial failed, or the deadline fired before it was answered. -/
def Unreached (endpoint : RemoteSocksEndpoint) (tr : List Event) : Prop :=
  (tr.head? = some .elapsed ∨ ∃ e, tr.head? = some (.refused endpoint e)) ∧ ∀ reached, .connected reached ∉ tr

/-- The resolver is called between the dial of a command that did not connect and a dial of the same endpoint by
another command. -/
def AsksBeforeRedial (log : List (Nat × Event)) : Prop :=
  ∀ xs t endpoint ys u zs, log = xs ++ (t, .dial endpoint) :: ys ++ (u, .dial endpoint) :: zs → u ≠ t →
    Unreached endpoint (of ys t) → ∃ v, (v, .lookup) ∈ ys

/-- The dial is not answered before the deadline. -/
def unanswered : List Action := [.resolved 0 (.ok (endpointAt 1080)), .deadline 0]

/-- The first dial fails, and the dial of the new endpoint fails, too. -/
def failedRetry : List Action :=
  [.resolved 0 (.ok (endpointAt 1080)), .dialed 0 (.error connectionRefused), .resolved 0 (.ok (endpointAt 1081)),
    .dialed 0 (.error hostUnreachable)]

/-- The next command dials the cached endpoint again without a call of the resolver: after a dial that the deadline cut
off, and after a retry that failed. -/
theorem unreached_endpoint_redialled :
    (∃ s, Reachable (step Base64.standardNoPad) oneAtATime init s ∧ (0, .elapsed) ∈ s.log ∧ ¬ AsksBeforeRedial s.log) ∧
    ∃ s, Reachable (step Base64.standardNoPad) oneAtATime init s ∧ (0, .elapsed) ∉ s.log ∧
      ¬ AsksBeforeRedial s.log := by
  constructor
  · have hrun : (run (step Base64.standardNoPad) init (.call 0 connect :: unanswered)).isSome := rfl
    have hstep : (step Base64.standardNoPad (Option.get _ hrun) (.call 1 connect)).isSome := rfl
    have hlog : (Option.get _ hstep).log = [(0, .lookup), (0, .found (.ok (endpointAt 1080)))] ++
      (0, .dial (endpointAt 1080)) :: note 0 [.elapsed] ++ (1, .dial (endpointAt 1080)) :: [] := rfl
    have hreach := reachable_thenAgain (by simp [unanswered, Action.task]) (by simp [unanswered, oneAtATime]) hrun rfl
      hstep
    refine ⟨_, hreach, by simp [hlog, note], ?_⟩
    intro h
    obtain ⟨v, hv⟩ := h _ _ _ _ _ _ hlog (by decide) ⟨.inl rfl, by simp [of_note]⟩
    simp [note] at hv
  · have hrun : (run (step Base64.standardNoPad) init (.call 0 connect :: failedRetry)).isSome := rfl
    have hstep : (step Base64.standardNoPad (Option.get _ hrun) (.call 1 connect)).isSome := rfl
    have hlog : (Option.get _ hstep).log = note 0 [.lookup, .found (.ok (endpointAt 1080)), .dial (endpointAt 1080),
        .refused (endpointAt 1080) connectionRefused, .lookup, .found (.ok (endpointAt 1081))] ++
      (0, .dial (endpointAt 1081)) :: note 0 [.refused (endpointAt 1081) hostUnreachable] ++
      (1, .dial (endpointAt 1081)) :: [] := rfl
    have hreach := reachable_thenAgain (by simp [failedRetry, Action.task]) (by simp [failedRetry, oneAtATime]) hrun rfl
      hstep
    refine ⟨_, hreach, by simp [hlog, note], ?_⟩
    intro h
    obtain ⟨v, hv⟩ := h _ _ _ _ _ _ hlog (by decide) ⟨.inr ⟨_, rfl⟩, by simp [of_note]⟩
    simp [note] at hv

end LzcSdk.RemoteSocks.RemoteNetstack
