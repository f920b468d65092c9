import LzcSdk.RemoteSocks.Netstack

/-!
# What the commands of a network stack have done

Where a command is determines what it has done, up to the endpoint and the errors (`Story`). The invariant `Inv` puts
this together with the mutex and the cache: every step keeps it (`inv_step`), so it holds of every state reached
(`inv_of_reachable`).
-/

namespace LzcSdk.RemoteSocks.RemoteNetstack

open Outcome ByteIo Lts History

/-! ## What a command has done -/

/-- The first lookup: nothing when the endpoint was cached, or a call of the resolver. -/
inductive FirstLookup (endpoint : RemoteSocksEndpoint) : List Event → Prop
  | cached : FirstLookup endpoint []
  | resolved : FirstLookup endpoint [.lookup, .found (.ok endpoint)]

/-- What a command did before it came where it is. -/
inductive Story : Phase → List Event → Prop
  | idle : Story .idle []
  | waiting {c : Command} : Story (.waiting c .first) []
  | resolving {c : Command} : Story (.resolving c .first) [.lookup]
  | unresolved {c : Command} {e : Error} : Story (.finished c (err e)) [.lookup, .found (.error e)]
  | dialing {c : Command} {endpoint : RemoteSocksEndpoint} {tr : List Event} (h : FirstLookup endpoint tr) :
    Story (.dialing c endpoint false) (tr ++ [.dial endpoint])
  | connected {c : Command} {endpoint : RemoteSocksEndpoint} {stream : Socket} {tr : List Event}
    (h : FirstLookup endpoint tr) : Story (.exchanging c stream) (tr ++ [.dial endpoint, .connected endpoint])
  | waitingAgain {c : Command} {endpoint : RemoteSocksEndpoint} {e : IoError} {tr : List Event}
    (h : FirstLookup endpoint tr) :
    Story (.waiting c (.refresh endpoint (fromIo e))) (tr ++ [.dial endpoint, .refused endpoint e])
  | resolvingAgain {c : Command} {endpoint : RemoteSocksEndpoint} {e : IoError} {tr : List Event}
    (h : FirstLookup endpoint tr) :
    Story (.resolving c (.refresh endpoint (fromIo e))) (tr ++ [.dial endpoint, .refused endpoint e, .lookup])
  | notRefreshed {c : Command} {endpoint : RemoteSocksEndpoint} {e : IoError} {r : Except Error RemoteSocksEndpoint}
    {tr : List Event} (h : FirstLookup endpoint tr) (hr : ∀ refreshed, r = .ok refreshed → refreshed = endpoint) :
    Story (.finished c (err (fromIo e))) (tr ++ [.dial endpoint, .refused endpoint e, .lookup, .found r])
  | dialingAgain {c : Command} {endpoint refreshed : RemoteSocksEndpoint} {e : IoError} {tr : List Event}
    (h : FirstLookup endpoint tr) (hne : refreshed ≠ endpoint) :
    Story (.dialing c refreshed true)
      (tr ++ [.dial endpoint, .refused endpoint e, .lookup, .found (.ok refreshed), .dial refreshed])
  | connectedAgain {c : Command} {endpoint refreshed : RemoteSocksEndpoint} {e : IoError} {stream : Socket}
    {tr : List Event} (h : FirstLookup endpoint tr) (hne : refreshed ≠ endpoint) :
    Story (.exchanging c stream) (tr ++ [.dial endpoint, .refused endpoint e, .lookup, .found (.ok refreshed),
      .dial refreshed, .connected refreshed])
  | refusedAgain {c : Command} {endpoint refreshed : RemoteSocksEndpoint} {e e' : IoError} {tr : List Event}
    (h : FirstLookup endpoint tr) (hne : refreshed ≠ endpoint) :
    Story (.finished c (err (fromIo e'))) (tr ++ [.dial endpoint, .refused endpoint e, .lookup,
      .found (.ok refreshed), .dial refreshed, .refused refreshed e'])
  | exchanged {c : Command} {stream : Socket} {o : Outcome Error (SocksAddress × Socket)} {tr : List Event}
    (h : Story (.exchanging c stream) tr) : Story (.finished c o) tr
  | elapsed {c : Command} {p : Phase} {tr : List Event} (h : Story p tr) (hp : p.awaiting = some c) :
    Story (.finished c (err .remoteSocksTimeout)) (tr ++ [.elapsed])
  | dropped {c : Command} {p : Phase} {tr : List Event} (h : Story p tr) (hp : p.awaiting = some c) :
    Story (.cancelled c) (tr ++ [.dropped])

/-! ## The invariant -/

namespace Phase

/-- The command is in the queue of the mutex. -/
def inQueue : Phase → Prop
  | waiting _ _ => True
  | resolving _ _ => True
  | _ => False

/-- The command has the mutex and waits for the resolver. -/
def isResolving : Phase → Prop
  | resolving _ _ => True
  | _ => False

end Phase

/-- The endpoint that the resolver gave. -/
def Event.given : Event → Option RemoteSocksEndpoint
  | found (.ok endpoint) => some endpoint
  | _ => none

/-- A dial goes to an endpoint that the resolver gave before. -/
def Known (before : List (Nat × Event)) (x : Nat × Event) : Prop :=
  ∀ endpoint, x.2 = .dial endpoint → ∃ u, (u, .found (.ok endpoint)) ∈ before

/-- The queue of the mutex agrees with the commands, the cache holds the last endpoint that the resolver gave, every
command has the history of where it is, and dials go to endpoints of the resolver. -/
structure Inv (s : State) : Prop where
  serves : s.lock.Serves s.phase Phase.inQueue Phase.isResolving
  cached : s.cachedEndpoint = lastOf Event.given s.log
  story : ∀ t, Story (s.phase t) (of s.log t)
  known : Each Known s.log

section Keep

variable {s s' : State} {t : Nat} {p : Phase} {c : Command} {l : Lookup}

theorem inv_init : Inv init :=
  ⟨⟨fun _ => ⟨(nomatch ·), (nomatch ·)⟩, fun _ => (nomatch ·)⟩, rfl, fun _ => .idle, each_nil⟩

/-- One command goes to another phase and does something. -/
theorem Inv.next (h : Inv s) (es : List Event)
    (hserves : s'.lock.Serves (Function.update s.phase t p) Phase.inQueue Phase.isResolving)
    (hphase : s'.phase = Function.update s.phase t p) (hlog : s'.log = s.log ++ note t es)
    (hcached : s'.cachedEndpoint = ((es.filterMap Event.given).getLast?).or s.cachedEndpoint)
    (hstory : Story p (of s.log t ++ es))
    (hknown : Each (fun before => Known (s.log ++ before)) (note t es)) : Inv s' := by
  refine ⟨hphase ▸ hserves, ?_, ?_, ?_⟩
  · rw [hcached, hlog, lastOf_note, h.cached]
  · intro u
    rw [hphase, hlog]
    exact of_update h.story hstory u
  · rw [hlog, each_append]
    exact ⟨h.known, hknown⟩

/-- What is no dial needs no endpoint. -/
theorem known_of_not_dial {es : List Event} (h : ∀ endpoint, .dial endpoint ∉ es) (before : List (Nat × Event)) :
    Each (fun more => Known (before ++ more)) (note t es) := by
  apply each_note
  rintro e he more endpoint hdial
  exact absurd (hdial ▸ he) (h endpoint)

/-- A command that asks for the mutex. -/
theorem Inv.request (h : Inv s) (es : List Event) (hcached : (es.filterMap Event.given) = [])
    (hes : ∀ endpoint, .dial endpoint ∉ es)
    (hstory : Story (.waiting c l) (of s.log t ++ es)) : Inv ((s.tell t es).request t c l) := by
  refine h.next es (h.serves.acquire (p := Phase.waiting c l) trivial id) rfl rfl ?_ hstory (known_of_not_dial hes _)
  rw [hcached]
  rfl

/-! ## The steps keep the invariant -/

/-- What a command did until `proxy_endpoint` returned. -/
inductive Heard : Lookup → Except Error RemoteSocksEndpoint → List Event → Prop
  | cached {endpoint : RemoteSocksEndpoint} : Heard .first (.ok endpoint) []
  | first {r : Except Error RemoteSocksEndpoint} : Heard .first r [.lookup, .found r]
  | refresh {endpoint : RemoteSocksEndpoint} {e : IoError} {r : Except Error RemoteSocksEndpoint} {tr : List Event}
    (h : FirstLookup endpoint tr) : Heard (.refresh endpoint (fromIo e)) r
      (tr ++ [.dial endpoint, .refused endpoint e, .lookup, .found r])

/-- The command that goes on has the history of where it goes. -/
theorem Heard.story {r : Except Error RemoteSocksEndpoint} {tr : List Event} (h : Heard l r tr) :
    Story (connectProxy c l r).1 (tr ++ (connectProxy c l r).2) := by
  cases h with
  | cached => exact .dialing .cached
  | first =>
    cases r with
    | ok endpoint => exact .dialing .resolved
    | error e => exact .unresolved
  | @refresh endpoint e r tr h =>
    cases r with
    | error e' =>
      rw [connectProxy, List.append_nil]
      exact .notRefreshed h nofun
    | ok refreshed =>
      rw [connectProxy]
      split
      · rename_i hsame
        rw [List.append_nil]
        exact .notRefreshed h fun _ hr => by cases hr; exact hsame
      · rename_i hne
        rw [List.append_assoc]
        exact .dialingAgain h hne

theorem not_inQueue_connectProxy (c : Command) (l : Lookup) (r : Except Error RemoteSocksEndpoint) :
    ¬ (connectProxy c l r).1.inQueue ∧ ¬ (connectProxy c l r).1.isResolving := by
  unfold connectProxy
  split
  · exact ⟨id, id⟩
  · exact ⟨id, id⟩
  · exact ⟨id, id⟩
  · split <;> exact ⟨id, id⟩

/-- The endpoint that a command dials is the one it got. -/
theorem eq_of_dial_mem_connectProxy {r : Except Error RemoteSocksEndpoint} {endpoint : RemoteSocksEndpoint}
    (h : .dial endpoint ∈ (connectProxy c l r).2) : r = .ok endpoint := by
  unfold connectProxy at h
  split at h
  · cases List.mem_singleton.1 h
    rfl
  · cases h
  · cases h
  · split at h
    · cases h
    · cases List.mem_singleton.1 h
      rfl

theorem given_connectProxy (c : Command) (l : Lookup) (r : Except Error RemoteSocksEndpoint) :
    (connectProxy c l r).2.filterMap Event.given = [] := by
  unfold connectProxy
  split
  · rfl
  · rfl
  · rfl
  · split <;> rfl

/-- A command goes on with an endpoint that the resolver gave, or with the error it gave. -/
theorem Inv.resume {r : Except Error RemoteSocksEndpoint} (h : Inv s) (es : List Event) (hlock : s'.lock = s.lock)
    (hphase : s'.phase = s.phase) (hlog : s'.log = s.log ++ note t es)
    (hcached : s'.cachedEndpoint = ((es.filterMap Event.given).getLast?).or s.cachedEndpoint)
    (hes : ∀ endpoint, .dial endpoint ∉ es)
    (hr : ∀ endpoint, r = .ok endpoint → ∃ u, (u, .found (.ok endpoint)) ∈ s'.log)
    (hheard : Heard l r (of s.log t ++ es)) : Inv (s'.resume t c l r) := by
  obtain ⟨hw, hn⟩ := not_inQueue_connectProxy c l r
  refine h.next (t := t) (p := (connectProxy c l r).1) (es ++ (connectProxy c l r).2) ?_ ?_ ?_ ?_ ?_ ?_
  · change FairLock.Serves (s'.lock.release t) _ _ _
    rw [hlock]
    exact h.serves.release hw hn
  · change Function.update s'.phase t _ = _
    rw [hphase]
  · change s'.log ++ _ = _
    rw [hlog, note_append, List.append_assoc]
  · rw [List.filterMap_append, given_connectProxy, List.append_nil]
    exact hcached
  · rw [← List.append_assoc]
    exact hheard.story
  · rw [note_append, each_append]
    refine ⟨known_of_not_dial hes _, each_of_forall ?_⟩
    intro x hx before endpoint hdial
    obtain ⟨e, he, rfl⟩ := List.mem_map.1 hx
    have hde : e = .dial endpoint := hdial
    rw [hde] at he
    obtain ⟨u, hu⟩ := hr endpoint (eq_of_dial_mem_connectProxy he)
    rw [hlog] at hu
    refine ⟨u, ?_⟩
    rw [← List.append_assoc]
    exact List.mem_append_left _ hu

/-- The cached endpoint was given by the resolver. -/
theorem Inv.exists_found (h : Inv s) {endpoint : RemoteSocksEndpoint} (hc : s.cachedEndpoint = some endpoint) :
    ∃ u, (u, .found (.ok endpoint)) ∈ s.log := by
  rw [h.cached] at hc
  obtain ⟨u, e, hmem, he⟩ := exists_of_lastOf hc
  refine ⟨u, ?_⟩
  cases e with
  | found r =>
    cases r with
    | ok endpoint' => cases he; exact hmem
    | error => cases he
  | _ => cases he

/-- What a command that waits for the mutex does with it. -/
inductive Waiting : Lookup → List Event → Prop
  | first : Waiting .first []
  | refresh {endpoint : RemoteSocksEndpoint} {e : IoError} {tr : List Event} (h : FirstLookup endpoint tr) :
    Waiting (.refresh endpoint (fromIo e)) (tr ++ [.dial endpoint, .refused endpoint e])

theorem waiting_of_story {tr : List Event} (h : Story (.waiting c l) tr) : Waiting l tr := by
  cases h with
  | waiting => exact .first
  | waitingAgain h => exact .refresh h

theorem Waiting.story {tr : List Event} (h : Waiting l tr) : Story (.resolving c l) (tr ++ [.lookup]) := by
  cases h with
  | first => exact .resolving
  | refresh h => rw [List.append_assoc]; exact .resolvingAgain h

/-- A command that gets the mutex. -/
theorem Inv.locked (h : Inv s) (hph : s.phase t = .waiting c l) (hh : s.lock.holder = some t) :
    Inv (s.locked t c l) := by
  have hw : Waiting l (of s.log t) := waiting_of_story (hph ▸ h.story t)
  unfold State.locked
  split
  · rename_i endpoint hcache hc
    refine h.resume [] rfl rfl (List.append_nil _).symm rfl nofun ?_ ?_
    · rintro endpoint' ⟨⟩
      exact h.exists_found hc
    · rw [List.append_nil]
      generalize of s.log t = tr at hw ⊢
      cases hw with
      | first => exact .cached
      | refresh => cases hcache
  · refine h.next [.lookup] ?_ rfl rfl rfl hw.story (known_of_not_dial (by simp) _)
    exact h.serves.keep (p := Phase.resolving c l) ⟨fun _ => by rw [hph]; trivial, fun _ => trivial⟩ fun _ => hh

/-- A command that asks for the mutex, and may get it at once. -/
theorem Inv.proxyEndpoint (h : Inv s) (es : List Event) (hcached : es.filterMap Event.given = [])
    (hes : ∀ endpoint, .dial endpoint ∉ es)
    (hstory : Story (.waiting c l) (of s.log t ++ es)) : Inv ((s.tell t es).proxyEndpoint t c l) := by
  have hr : Inv ((s.tell t es).request t c l) := h.request es hcached hes hstory
  unfold State.proxyEndpoint
  dsimp only
  split
  · exact hr.locked (Function.update_self ..) ‹_›
  · exact hr

/-- What the resolver answers is what the command hears. -/
theorem heard_of_story {r : Except Error RemoteSocksEndpoint} {tr : List Event} (h : Story (.resolving c l) tr) :
    Heard l r (tr ++ [.found r]) := by
  cases h with
  | resolving => exact .first
  | resolvingAgain h => rw [List.append_assoc]; exact .refresh h

theorem cachedEndpoint_store (s : State) (r : Except Error RemoteSocksEndpoint) :
    (s.store r).cachedEndpoint = (([Event.found r].filterMap Event.given).getLast?).or s.cachedEndpoint := by
  cases r <;> rfl

/-- The resolver answers. -/
theorem Inv.resolved (h : Inv s) (hph : s.phase t = .resolving c l) (r : Except Error RemoteSocksEndpoint) :
    Inv (((s.store r).tell t [.found r]).resume t c l r) := by
  have hstore : (s.store r).lock = s.lock ∧ (s.store r).phase = s.phase ∧ (s.store r).log = s.log := by
    cases r <;> exact ⟨rfl, rfl, rfl⟩
  obtain ⟨hlock, hphase, hlog⟩ := hstore
  have htell : ((s.store r).tell t [.found r]).log = s.log ++ note t [.found r] := congrArg (· ++ _) hlog
  refine h.resume [.found r] hlock hphase htell (cachedEndpoint_store s r) (by simp) ?_ ?_
  · rintro endpoint rfl
    rw [htell]
    exact ⟨t, List.mem_append_right _ List.mem_cons_self⟩
  · exact heard_of_story (hph ▸ h.story t)

/-- A command that waits for something is given up. -/
theorem Inv.abandon {e : Event} (h : Inv s) (hw : ¬ p.inQueue) (hn : ¬ p.isResolving) (hgiven : e.given = none)
    (hdial : ∀ endpoint, e ≠ .dial endpoint) (hstory : Story p (of s.log t ++ [e])) :
    Inv ((s.leave t p).tell t [e]) := by
  refine h.next [e] (h.serves.release hw hn) rfl rfl ?_ hstory (known_of_not_dial ?_ _)
  · rw [List.filterMap_cons_none hgiven]
    rfl
  · intro endpoint hmem
    exact hdial endpoint (List.mem_singleton.1 hmem).symm

/-- A command outside the mutex. -/
theorem Inv.move (h : Inv s) (es : List Event) (ht : ¬ (s.phase t).inQueue) (hw : ¬ p.inQueue) (hn : ¬ p.isResolving)
    (hgiven : es.filterMap Event.given = []) (hes : ∀ endpoint, .dial endpoint ∉ es)
    (hstory : Story p (of s.log t ++ es)) : Inv ((s.set t p).tell t es) := by
  refine h.next es (h.serves.keep ⟨fun hq => absurd hq hw, fun hq => absurd hq ht⟩ fun hq => absurd hq hn) rfl rfl ?_
    hstory (known_of_not_dial hes _)
  rw [hgiven]
  rfl

theorem tell_nil (s : State) (t : Nat) : s.tell t [] = s := by
  rw [State.tell, note, List.map_nil, List.append_nil]

theorem eq_nil_of_story_idle {tr : List Event} (h : Story .idle tr) : tr = [] := by
  cases h
  rfl

/-- A dial fails for the first time. -/
theorem story_refused {endpoint : RemoteSocksEndpoint} {tr : List Event} (h : Story (.dialing c endpoint false) tr)
    (e : IoError) : Story (.waiting c (.refresh endpoint (fromIo e))) (tr ++ [.refused endpoint e]) := by
  cases h with
  | dialing h => rw [List.append_assoc]; exact .waitingAgain h

/-- A dial fails for the second time. -/
theorem story_refused_again {endpoint : RemoteSocksEndpoint} {tr : List Event}
    (h : Story (.dialing c endpoint true) tr) (e : IoError) :
    Story (.finished c (err (fromIo e))) (tr ++ [.refused endpoint e]) := by
  cases h with
  | dialingAgain h hne => rw [List.append_assoc]; exact .refusedAgain h hne

theorem story_connected {endpoint : RemoteSocksEndpoint} {again : Bool} {tr : List Event}
    (h : Story (.dialing c endpoint again) tr) (stream : Socket) :
    Story (.exchanging c stream) (tr ++ [.connected endpoint]) := by
  cases h with
  | dialing h => rw [List.append_assoc]; exact .connected h
  | dialingAgain h hne => rw [List.append_assoc]; exact .connectedAgain h hne

theorem inv_step (b64 : Base64.Engine) {act : Action} (h : Inv s) (ha : step b64 s act = some s') : Inv s' := by
  cases trans_of_step ha with
  | @call t c hph =>
    have hnil : of s.log t = [] := eq_nil_of_story_idle (hph ▸ h.story t)
    rw [← tell_nil s t]
    apply h.proxyEndpoint [] rfl (by simp)
    rw [hnil]
    exact .waiting
  | grant hph hh => exact h.locked hph hh
  | @resolved t c l r hph => exact h.resolved hph r
  | @connected t c endpoint again stream hph =>
    exact h.move [.connected endpoint] (by rw [hph]; exact id) id id rfl (by simp)
      (story_connected (hph ▸ h.story t) stream)
  | @refused t c endpoint e hph =>
    exact h.proxyEndpoint [.refused endpoint e] rfl (by simp) (story_refused (hph ▸ h.story t) e)
  | @refusedAgain t c endpoint e hph =>
    exact h.move [.refused endpoint e] (by rw [hph]; exact id) id id rfl (by simp)
      (story_refused_again (hph ▸ h.story t) e)
  | @exchanged t c stream hph =>
    rw [← tell_nil (s.set t _) t]
    apply h.move [] (by rw [hph]; exact id) id id rfl (by simp)
    rw [List.append_nil]
    exact .exchanged (hph ▸ h.story t)
  | @deadline t c hc => exact h.abandon id id rfl (by simp) (.elapsed (h.story t) hc)
  | @cancel t c hc => exact h.abandon id id rfl (by simp) (.dropped (h.story t) hc)

end Keep

theorem inv_of_reachable {b64 : Base64.Engine} {guard : State → Action → Prop} {s : State}
    (h : Reachable (step b64) guard init s) : Inv s :=
  h.invariant inv_init fun _ _ _ hi _ ha => inv_step b64 hi ha

end LzcSdk.RemoteSocks.RemoteNetstack
