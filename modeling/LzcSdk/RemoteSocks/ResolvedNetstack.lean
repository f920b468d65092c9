import LzcSdk.HServer
import LzcSdk.RemoteSocks.NetstackProgress

/-!
# Network stacks with a resolver

The resolver of a network stack is a fixed endpoint (`fixed`), or it asks `HPortalSys` for its location (`new`).

A stack with a fixed endpoint dials nothing else, and a command dials once and reports the error of this dial
(`fixed_dials_once`). A stack of the portal is a network stack whose resolver answers what the portal replied
(`reachable_stack`): **it asks for its location only, and what it dials and caches are hosts and ports of URLs that the
portal gave before** (`portal_dials`).
-/

namespace LzcSdk.RemoteSocks.RemoteNetstack

open Outcome ByteIo Lts History

/-! ## What the resolver gave -/

/-- The result of a call of the resolver. -/
def resultBy : Nat × Event → Option (Nat × Except Error RemoteSocksEndpoint)
  | (t, .found r) => some (t, r)
  | _ => none

/-- The results of the resolver, in order. -/
def results (log : List (Nat × Event)) : List (Nat × Except Error RemoteSocksEndpoint) := log.filterMap resultBy

/-- The result that comes with an action. -/
def Action.results : Action → List (Nat × Except Error RemoteSocksEndpoint)
  | resolved t r => [(t, r)]
  | _ => []

section Results

variable {b64 : Base64.Engine} {s s' : State} {t : Nat} {c : Command} {l : Lookup} {es : List Event} {act : Action}

theorem results_append (log log' : List (Nat × Event)) : results (log ++ log') = results log ++ results log' :=
  List.filterMap_append

theorem results_note (h : ∀ r, .found r ∉ es) : results (note t es) = [] := by
  rw [results, note, List.filterMap_map, List.filterMap_eq_nil_iff]
  intro e he
  cases e with
  | found r => exact absurd he (h r)
  | _ => rfl

theorem results_tell (h : ∀ r, .found r ∉ es) : results (s.tell t es).log = results s.log := by
  change results (s.log ++ note t es) = _
  rw [results_append, results_note h, List.append_nil]

theorem found_not_mem_connectProxy (c : Command) (l : Lookup) (r r' : Except Error RemoteSocksEndpoint) :
    .found r' ∉ (connectProxy c l r).2 := by
  unfold connectProxy
  split
  · simp
  · simp
  · simp
  · split <;> simp

theorem results_locked (s : State) (t : Nat) (c : Command) (l : Lookup) :
    results (s.locked t c l).log = results s.log := by
  unfold State.locked
  split
  · exact results_tell (s := s.leave t _) (found_not_mem_connectProxy c l _)
  · exact results_tell (s := s.set t _) (by simp)

theorem results_proxyEndpoint (s : State) (t : Nat) (c : Command) (l : Lookup) :
    results (s.proxyEndpoint t c l).log = results s.log := by
  unfold State.proxyEndpoint
  dsimp only
  split
  · exact results_locked _ t c l
  · rfl

/-- The resolver gives what comes with its answers. -/
theorem results_step (ha : step b64 s act = some s') : results s'.log = results s.log ++ act.results := by
  cases trans_of_step ha with
  | call hph => rw [results_proxyEndpoint]; exact (List.append_nil _).symm
  | grant hph => rw [results_locked]; exact (List.append_nil _).symm
  | @resolved t c l r hph =>
    have hstore : (s.store r).log = s.log := by cases r <;> rfl
    have hresume := results_tell (s := (((s.store r).tell t [.found r]).leave t (connectProxy c l r).1)) (t := t)
      (found_not_mem_connectProxy c l r)
    refine hresume.trans ?_
    change results ((s.store r).log ++ [(t, .found r)]) = _
    rw [results_append, hstore]
    rfl
  | connected hph => exact (results_tell (s := s.set _ _) (by simp)).trans (List.append_nil _).symm
  | refused hph =>
    rw [results_proxyEndpoint]
    exact (results_tell (by simp)).trans (List.append_nil _).symm
  | refusedAgain hph => exact (results_tell (s := s.set _ _) (by simp)).trans (List.append_nil _).symm
  | exchanged hph => exact (List.append_nil _).symm
  | deadline hc | cancel hc => exact (results_tell (s := s.leave _ _) (by simp)).trans (List.append_nil _).symm

theorem mem_results {r : Except Error RemoteSocksEndpoint} {log : List (Nat × Event)} :
    (t, r) ∈ results log ↔ (t, .found r) ∈ log := by
  rw [results, List.mem_filterMap]
  constructor
  · rintro ⟨⟨u, e⟩, hmem, he⟩
    cases e <;> cases he
    exact hmem
  · exact fun hmem => ⟨_, hmem, rfl⟩

end Results

/-! ## A fixed endpoint -/

/-- `fixed`: the resolver gives this endpoint. -/
def fixed (endpoint : RemoteSocksEndpoint) : State → Action → Prop := fun _ a => ∀ x ∈ a.results, x.2 = .ok endpoint

section Fixed

variable {b64 : Base64.Engine} {s : State} {endpoint : RemoteSocksEndpoint}

/-- Every result of the resolver is the fixed endpoint. -/
theorem results_fixed (h : Reachable (step b64) (fixed endpoint) init s) : ∀ x ∈ results s.log, x.2 = .ok endpoint := by
  refine h.invariant (I := fun s => ∀ x ∈ results s.log, x.2 = .ok endpoint) (by simp [init, results]) ?_
  intro s a s' hi hg ha x hx
  rw [results_step ha, List.mem_append] at hx
  exact hx.elim (hi x) (hg x)

section Story

variable {tr xs : List Event} {first refreshed : RemoteSocksEndpoint} {e e' : IoError} {p : Phase} {c : Command}
  {o : Outcome Error (SocksAddress × Socket)}

/-- Two endpoints that are dialled are one, where all are. -/
theorem eq_of_dials (hall : ∀ e, .dial e ∈ tr ++ xs → e = endpoint) (hfirst : .dial first ∈ xs)
    (hrefreshed : .dial refreshed ∈ xs) : refreshed = first :=
  (hall refreshed (List.mem_append_right _ hrefreshed)).trans (hall first (List.mem_append_right _ hfirst)).symm

theorem dials_first_append (h : FirstLookup first tr) (xs : List Event) : dials (tr ++ xs) = dials xs := by
  rw [dials_append, h.spent.1]
  rfl

/-- A command that dials one endpoint only dials it once. -/
theorem dials_le_one (h : Story p tr) (hall : ∀ e, .dial e ∈ tr → e = endpoint) : (dials tr).length ≤ 1 := by
  induction h with
  | idle | waiting | resolving | unresolved => exact Nat.zero_le 1
  | dialing h | connected h | waitingAgain h | resolvingAgain h | notRefreshed h =>
    rw [dials_first_append h]
    exact Nat.le_refl 1
  | dialingAgain h hne | connectedAgain h hne | refusedAgain h hne =>
    exact absurd (eq_of_dials hall (by simp) (by simp)) hne
  | exchanged h ih => exact ih hall
  | elapsed h hp ih | dropped h hp ih =>
    have hlast := ih fun e he => hall e (List.mem_append_left _ he)
    rw [dials_append, List.length_append]
    exact hlast

theorem refused_not_mem_first (h : FirstLookup first tr) : .refused endpoint e ∉ tr := by
  cases h <;> simp

/-- A command that dials one endpoint only and is refused reports the error. -/
theorem reports_refused (h : Story (.finished c o) tr) (hall : ∀ e, .dial e ∈ tr → e = endpoint)
    (hr : .refused endpoint e ∈ tr) (he : .elapsed ∉ tr) : o = err (fromIo e) := by
  cases h with
  | unresolved => simp at hr
  | @notRefreshed c first e' r tr h hsame =>
    rcases List.mem_append.1 hr with hmem | hmem
    · exact absurd hmem (refused_not_mem_first h)
    · simp only [List.mem_cons, reduceCtorEq, Event.refused.injEq, List.not_mem_nil, false_or, or_false] at hmem
      rw [hmem.2]
  | refusedAgain h hne => exact absurd (eq_of_dials hall (by simp) (by simp)) hne
  | exchanged h =>
    cases h with
    | @connected c first stream tr h =>
      rcases List.mem_append.1 hr with hmem | hmem
      · exact absurd hmem (refused_not_mem_first h)
      · simp at hmem
    | connectedAgain h hne => exact absurd (eq_of_dials hall (by simp) (by simp)) hne
  | elapsed => exact absurd (List.mem_append_right _ List.mem_cons_self) he

end Story

/-- **A stack with a fixed endpoint** dials it and nothing else. A command dials once at most, and when this dial was
refused it reports the error, unless its deadline fires. -/
theorem fixed_dials_once (h : Reachable (step b64) (fixed endpoint) init s) :
    (∀ t e, (t, .dial e) ∈ s.log → e = endpoint) ∧ (∀ e, s.cachedEndpoint = some e → e = endpoint) ∧
    ∀ t, (dials (of s.log t)).length ≤ 1 ∧
      ∀ c o e, s.phase t = .finished c o → .refused endpoint e ∈ of s.log t → .elapsed ∉ of s.log t →
        o = err (fromIo e) := by
  have hi : Inv s := inv_of_reachable (h.mono fun _ _ _ => trivial)
  have hgiven : ∀ u e, (u, .found (.ok e)) ∈ s.log → e = endpoint := by
    intro u e hmem
    exact Except.ok.inj (results_fixed h (u, .ok e) (mem_results.2 hmem))
  have hdial : ∀ t e, (t, .dial e) ∈ s.log → e = endpoint := by
    intro t e hmem
    obtain ⟨before, after, hlog⟩ := List.append_of_mem hmem
    obtain ⟨u, hu⟩ := hi.known before (t, .dial e) after hlog e rfl
    exact hgiven u e (hlog ▸ List.mem_append_left _ hu)
  refine ⟨hdial, fun e hc => ?_, fun t => ⟨?_, fun c o e hph hr he => ?_⟩⟩
  · obtain ⟨u, hu⟩ := hi.exists_found hc
    exact hgiven u e hu
  · exact dials_le_one (hi.story t) fun e hmem => hdial t e (mem_of.1 hmem)
  · exact reports_refused (hph ▸ hi.story t) (fun e hmem => hdial t e (mem_of.1 hmem)) hr he

/-- The only dial is refused, and the resolver gives the endpoint again. -/
theorem fixed_dials_once_refused :
    let actions : List Action := [.call 0 connect, .resolved 0 (.ok (endpointAt 1080)),
      .dialed 0 (.error connectionRefused), .resolved 0 (.ok (endpointAt 1080))]
    ∃ s, run (step Base64.standardNoPad) init actions = some s ∧ (dials (of s.log 0)).length ≤ 1 ∧
      s.phase 0 = .finished connect (err (fromIo connectionRefused)) := by
  intro actions
  have hrun : (run (step Base64.standardNoPad) init actions).isSome := rfl
  have hguard : ∀ s, ∀ a ∈ actions, fixed (endpointAt 1080) s a := by
    simp [actions, fixed, Action.results]
  obtain ⟨-, -, honce⟩ := fixed_dials_once (.of_run hguard (Option.some_get hrun).symm)
  exact ⟨_, (Option.some_get hrun).symm, (honce 0).1, rfl⟩

end Fixed

end LzcSdk.RemoteSocks.RemoteNetstack

namespace LzcSdk.RemoteSocks.PortalNetstack

open Outcome ByteIo Lts History RemoteNetstack RemoteSocksEndpoint

/-! ## The portal as the resolver -/

/-- A network stack, the requests that it sent to the portal, and the replies. -/
structure State where
  stack : RemoteNetstack.State
  requests : List (Nat × RemoteSocksRequest)
  replies : List (Nat × Except Nat RemoteSocksReply)

/-- The state when the stack is made. -/
def init : State := ⟨RemoteNetstack.init, [], []⟩

/-- What can happen: an action of the stack, or a reply or a status of the portal. -/
inductive Action where
  | command (a : RemoteNetstack.Action)
  | replied (t : Nat) (reply : Except Nat RemoteSocksReply)

section Step

variable (b64 : Base64.Engine) (parse : String → Option Url) (location : RemoteLocation)

/-- `remote_socks_endpoint`, from the reply on. -/
def remoteSocksEndpoint : Except Nat RemoteSocksReply → Except Error RemoteSocksEndpoint
  | .error code => .error (.grpcStatus code)
  | .ok reply => fromStr parse reply.serverUrl

/-- Each call of the resolver sends a request. -/
def requestsOf (log : List (Nat × Event)) : List (Nat × RemoteSocksRequest) :=
  (lookups log).map fun t => (t, location.request)

/-- The stack goes on. -/
def State.go (s : State) (stack : RemoteNetstack.State) (replies : List (Nat × Except Nat RemoteSocksReply)) : State :=
  ⟨stack, s.requests ++ requestsOf location (stack.log.drop s.stack.log.length), s.replies ++ replies⟩

/-- The state after an action, if it is enabled: the resolver answers only what the portal replied. -/
def step (s : State) : Action → Option State
  | .command (.resolved _ _) => none
  | .command a => (RemoteNetstack.step b64 s.stack a).map fun stack => s.go location stack []
  | .replied t reply =>
    (RemoteNetstack.step b64 s.stack (.resolved t (remoteSocksEndpoint parse reply))).map fun stack =>
      s.go location stack [(t, reply)]

/-- The results of the resolver that the replies are. -/
def resultsOf (replies : List (Nat × Except Nat RemoteSocksReply)) : List (Nat × Except Error RemoteSocksEndpoint) :=
  replies.map fun x => (x.1, remoteSocksEndpoint parse x.2)

variable {b64 parse location} {s s' : State} {a : Action}

/-- A step is a step of the network stack, whose resolver gives what the portal replied. -/
theorem stack_of_step (ha : step b64 parse location s a = some s') : ∃ act replies,
    RemoteNetstack.step b64 s.stack act = some s'.stack ∧ act.results = resultsOf parse replies ∧
      s' = s.go location s'.stack replies := by
  cases a with
  | command act =>
    cases act with
    | resolved t r => cases ha
    | _ =>
      obtain ⟨stack, hstack, rfl⟩ := Option.map_eq_some_iff.1 ha
      exact ⟨_, [], hstack, rfl, rfl⟩
  | replied t reply =>
    obtain ⟨stack, hstack, rfl⟩ := Option.map_eq_some_iff.1 ha
    exact ⟨_, [(t, reply)], hstack, rfl, rfl⟩

/-- **A stack of the portal is a network stack.** -/
theorem reachable_stack (h : Reachable (step b64 parse location) anyStep init s) :
    Reachable (RemoteNetstack.step b64) anyStep RemoteNetstack.init s.stack :=
  h.simulate State.stack fun s a s' _ ha => by
    obtain ⟨act, -, hstack, -⟩ := stack_of_step ha
    exact .single hstack trivial

/-- The requests are the calls of the resolver, and the replies are its results. -/
structure Inv (parse : String → Option Url) (location : RemoteLocation) (s : State) : Prop where
  requests : s.requests = requestsOf location s.stack.log
  replies : results s.stack.log = resultsOf parse s.replies

theorem inv_step (hi : Inv parse location s) (ha : step b64 parse location s a = some s') : Inv parse location s' := by
  obtain ⟨act, replies, hstack, hresults, hgo⟩ := stack_of_step ha
  obtain ⟨es, htouch, -⟩ := touches_step hstack
  constructor
  · rw [hgo]
    change s.requests ++ requestsOf location (s'.stack.log.drop s.stack.log.length) = requestsOf location s'.stack.log
    rw [htouch.log, List.drop_left, hi.requests, requestsOf, requestsOf, requestsOf, lookups_append, List.map_append]
  · rw [results_step hstack, hi.replies, hresults, hgo]
    exact List.map_append.symm

theorem inv_of_reachable (h : Reachable (step b64 parse location) anyStep init s) : Inv parse location s :=
  h.invariant ⟨rfl, rfl⟩ fun _ _ _ hi _ ha => inv_step hi ha

end Step

/-! ## What is asked and what is dialled -/

section Dials

variable {b64 : Base64.Engine} {parse : String → Option Url} {location : RemoteLocation} {s : State}

/-- The endpoint is the host and the port of a URL that the portal gave. -/
def Given (parse : String → Option Url) (s : State) (endpoint : RemoteSocksEndpoint) : Prop :=
  ∃ u reply url host, (u, .ok reply) ∈ s.replies ∧ parse reply.serverUrl = some url ∧
    IsSocksUrl url endpoint.resolvesHostnameRemotely host endpoint.port ∧
    toSocketAddrs endpoint.authority = some (host.target endpoint.port)

/-- What the resolver gave, the portal gave. -/
theorem given_of_found (hi : Inv parse location s) {u : Nat} {endpoint : RemoteSocksEndpoint}
    (hmem : (u, .found (.ok endpoint)) ∈ s.stack.log) : Given parse s endpoint := by
  rw [← mem_results, hi.replies] at hmem
  obtain ⟨⟨v, reply⟩, hreply, heq⟩ := List.mem_map.1 hmem
  obtain ⟨rfl, hok⟩ := Prod.mk.inj heq
  cases reply with
  | error code => cases hok
  | ok reply =>
    obtain ⟨url, host, hparse, hurl, haddr, -⟩ := endpoint_dials hok
    exact ⟨v, reply, url, host, hreply, hparse, hurl, haddr⟩

/-- The endpoints that the resolver gave are the results without the errors. -/
theorem lastOf_given (log : List (Nat × Event)) :
    lastOf Event.given log = ((results log).filterMap fun x => x.2.toOption).getLast? := by
  rw [lastOf, results, List.filterMap_filterMap]
  congr 2
  funext x
  obtain ⟨t, e⟩ := x
  cases e with
  | found r => cases r <;> rfl
  | _ => rfl

/-- **A stack of the portal dials what the portal gave.** Every request asks for the location of the stack. Every
endpoint that is dialled, and the one in the cache, is the host and the port of a URL in a reply. The cache holds the
endpoint of the last reply that was a SOCKS URL: a status, or any other reply, leaves it as it is. -/
theorem portal_dials (h : Reachable (step b64 parse location) anyStep init s) :
    (∀ x ∈ s.requests, x.2 = location.request) ∧
    (∀ t endpoint, (t, .dial endpoint) ∈ s.stack.log → Given parse s endpoint) ∧
    (∀ endpoint, s.stack.cachedEndpoint = some endpoint → Given parse s endpoint) ∧
    s.stack.cachedEndpoint = (s.replies.filterMap fun x => (remoteSocksEndpoint parse x.2).toOption).getLast? := by
  have hi : Inv parse location s := inv_of_reachable h
  have hstack : RemoteNetstack.Inv s.stack := RemoteNetstack.inv_of_reachable (reachable_stack h)
  refine ⟨fun x hx => ?_, fun t endpoint hdial => ?_, fun endpoint hc => ?_, ?_⟩
  · rw [hi.requests] at hx
    obtain ⟨t, -, rfl⟩ := List.mem_map.1 hx
    rfl
  · obtain ⟨before, after, hlog⟩ := List.append_of_mem hdial
    obtain ⟨u, hu⟩ := hstack.known before (t, .dial endpoint) after hlog endpoint rfl
    exact given_of_found hi (hlog ▸ List.mem_append_left _ hu)
  · obtain ⟨u, hu⟩ := hstack.exists_found hc
    exact given_of_found hi hu
  · rw [hstack.cached, lastOf_given, hi.replies, resultsOf, List.filterMap_map]
    rfl

/-- The portal gives a URL for a peer, and the peer's proxy is dialled. -/
theorem portal_dials_peer :
    let actions : List Action := [.command (.call 0 connect), .replied 0 (.ok ⟨"socks5h://[::ffff:10.0.0.1]:1080"⟩)]
    let endpoint : RemoteSocksEndpoint := ⟨"::ffff:10.0.0.1", 1080, "[::ffff:10.0.0.1]:1080", true⟩
    ∃ s, run (step Base64.standardNoPad parseProxy (.fromTarget "peer-42")) init actions = some s ∧
      s.requests = [(0, ⟨.Remote, "peer-42"⟩)] ∧ Given parseProxy s endpoint := by
  intro actions endpoint
  have hend : (run (step Base64.standardNoPad parseProxy (.fromTarget "peer-42")) init actions).map
      (fun s => (s.requests, s.stack.cachedEndpoint)) = some ([(0, ⟨.Remote, "peer-42"⟩)], some endpoint) := by
    decide +kernel
  obtain ⟨s, hrun, hs⟩ := Option.map_eq_some_iff.1 hend
  obtain ⟨hrequests, hcached⟩ := Prod.mk.inj hs
  obtain ⟨-, -, hgiven, -⟩ := portal_dials (.of_run (fun _ _ _ => trivial) hrun)
  exact ⟨s, hrun, hrequests, hgiven endpoint hcached⟩

end Dials

end LzcSdk.RemoteSocks.PortalNetstack
