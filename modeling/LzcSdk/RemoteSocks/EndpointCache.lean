import LzcSdk.RemoteSocks.NetstackStory

/-!
# The laws of the endpoint cache

**The cache and the dials follow the resolver** (`endpoint_cache_invariant`), for every interleaving of commands: the
cache holds the endpoint that the resolver gave last, one command at a time calls the resolver, a command dials at most
twice and endpoints of the resolver only, the second time another endpoint after a refresh that followed the first
failure, and it reports the error of its last dial.
-/

namespace LzcSdk.RemoteSocks.RemoteNetstack

open Outcome ByteIo Lts History

/-- The endpoint of a dial. -/
def Event.dialed : Event → Option RemoteSocksEndpoint
  | dial endpoint => some endpoint
  | _ => none

/-- The endpoint and the error of a dial that failed. -/
def Event.refusal : Event → Option (RemoteSocksEndpoint × IoError)
  | refused endpoint e => some (endpoint, e)
  | _ => none

def Event.isLookup : Event → Bool
  | lookup => true
  | _ => false

/-- The endpoints that a command dials. -/
def dials (tr : List Event) : List RemoteSocksEndpoint := tr.filterMap Event.dialed

/-- A second dial goes to another endpoint, which the resolver gave after the first dial had failed. -/
def SecondDial (before : List Event) (x : Event) : Prop :=
  ∀ endpoint refreshed, x = .dial refreshed → .dial endpoint ∈ before → refreshed ≠ endpoint ∧
    ∃ earlier e, before = earlier ++ [.dial endpoint, .refused endpoint e, .lookup, .found (.ok refreshed)]

/-- A call of the resolver is under way: it is the last thing that the command did. -/
def Calling (s : State) (t : Nat) : Prop := (of s.log t).getLast? = some .lookup

/-- The bounds on what a command does. -/
structure Bounded (tr : List Event) : Prop where
  twoDials : (dials tr).length ≤ 2
  twoLookups : tr.countP Event.isLookup ≤ 2
  second : Each SecondDial tr

/-- The outcome is the error of the last dial. -/
def ReportsLastDial (tr : List Event) (o : Outcome Error (SocksAddress × Socket)) : Prop :=
  ∃ endpoint e, (dials tr).getLast? = some endpoint ∧ (tr.filterMap Event.refusal).getLast? = some (endpoint, e) ∧
    o = err (fromIo e)

section Bounds

variable {tr xs : List Event} {p : Phase} {endpoint refreshed : RemoteSocksEndpoint} {e : IoError}

theorem dials_append (xs ys : List Event) : dials (xs ++ ys) = dials xs ++ dials ys := List.filterMap_append

/-- A command that dialed has the endpoint in its list. -/
theorem mem_dials : endpoint ∈ dials tr ↔ .dial endpoint ∈ tr := by
  rw [dials, List.mem_filterMap]
  constructor
  · rintro ⟨x, hx, hd⟩
    cases x <;> cases hd
    exact hx
  · intro h
    exact ⟨_, h, rfl⟩

/-- Where there is one dial at most there is no second one. -/
theorem each_second_of_dials_le_one (h : (dials tr).length ≤ 1) : Each SecondDial tr := by
  rintro before x after rfl endpoint refreshed rfl hmem
  have hpos : 0 < (dials before).length := List.length_pos_of_mem (mem_dials.2 hmem)
  have hone : dials (Event.dial refreshed :: after) = refreshed :: dials after := rfl
  rw [dials_append, hone, List.length_append, List.length_cons] at h
  omega

/-- The first lookup dials nothing and calls the resolver at most once. -/
theorem FirstLookup.spent (h : FirstLookup endpoint tr) : dials tr = [] ∧ tr.countP Event.isLookup ≤ 1 := by
  cases h with
  | cached => exact ⟨rfl, Nat.zero_le 1⟩
  | resolved => exact ⟨rfl, Nat.le_refl 1⟩

/-- At most one dial and one more call of the resolver. -/
theorem bounded_once (h : FirstLookup endpoint tr) (hd : (dials xs).length ≤ 1)
    (hl : xs.countP Event.isLookup ≤ 1) : Bounded (tr ++ xs) := by
  obtain ⟨hdials, hlookups⟩ := h.spent
  have hall : (dials (tr ++ xs)).length ≤ 1 := by
    rw [dials_append, hdials]
    exact hd
  refine ⟨Nat.le_succ_of_le hall, ?_, each_second_of_dials_le_one hall⟩
  rw [List.countP_append]
  omega

/-- What is neither a dial nor a call of the resolver. -/
theorem Bounded.snoc {x : Event} (h : Bounded tr) (hd : x.dialed = none) (hl : x.isLookup = false) :
    Bounded (tr ++ [x]) := by
  have hx : dials [x] = [] := List.filterMap_cons_none hd
  refine ⟨?_, ?_, each_append.2 ⟨h.second, ?_⟩⟩
  · rw [dials_append, hx, List.append_nil]
    exact h.twoDials
  · rw [List.countP_append, List.countP_singleton, hl]
    exact h.twoLookups
  · rw [each_cons]
    refine ⟨?_, each_nil⟩
    rintro endpoint refreshed rfl
    cases hd

/-- The second dial. -/
theorem bounded_twice (h : FirstLookup endpoint tr) (hne : refreshed ≠ endpoint) :
    Bounded (tr ++ [.dial endpoint, .refused endpoint e, .lookup, .found (.ok refreshed), .dial refreshed]) := by
  obtain ⟨hdials, hlookups⟩ := h.spent
  have hfirst : Bounded (tr ++ [.dial endpoint, .refused endpoint e, .lookup, .found (.ok refreshed)]) :=
    bounded_once h (Nat.le_refl 1) (Nat.le_refl 1)
  have hsplit : tr ++ [.dial endpoint, .refused endpoint e, .lookup, .found (.ok refreshed), .dial refreshed] =
      (tr ++ [.dial endpoint, .refused endpoint e, .lookup, .found (.ok refreshed)]) ++ [.dial refreshed] := by
    rw [List.append_assoc]
    rfl
  have hone : dials (tr ++ [.dial endpoint, .refused endpoint e, .lookup, .found (.ok refreshed)]) = [endpoint] := by
    rw [dials_append, hdials]
    rfl
  rw [hsplit]
  refine ⟨?_, ?_, each_append.2 ⟨hfirst.second, ?_⟩⟩
  · rw [dials_append, hone]
    exact Nat.le_refl 2
  · rw [List.countP_append]
    exact hfirst.twoLookups
  · rw [each_cons]
    refine ⟨?_, each_nil⟩
    rintro endpoint' refreshed' ⟨⟩ hmem
    rw [List.append_nil, ← mem_dials, hone, List.mem_singleton] at hmem
    subst hmem
    exact ⟨hne, tr, e, List.append_nil _⟩

/-- A command keeps to the bounds wherever it is. -/
theorem bounded_of_story (h : Story p tr) : Bounded tr := by
  induction h with
  | idle | waiting => exact ⟨Nat.zero_le 2, Nat.zero_le 2, each_nil⟩
  | resolving | unresolved =>
    exact ⟨Nat.zero_le 2, Nat.le_succ 1, each_second_of_dials_le_one (Nat.zero_le 1)⟩
  | dialing h | connected h | waitingAgain h => exact bounded_once h (Nat.le_refl 1) (Nat.zero_le 1)
  | resolvingAgain h | notRefreshed h => exact bounded_once h (Nat.le_refl 1) (Nat.le_refl 1)
  | dialingAgain h hne => exact bounded_twice h hne
  | @connectedAgain c endpoint refreshed e stream tr h hne =>
    have hsnoc := (bounded_twice (e := e) h hne).snoc (x := .connected refreshed) rfl rfl
    rw [List.append_assoc] at hsnoc
    exact hsnoc
  | @refusedAgain c endpoint refreshed e e' tr h hne =>
    have hsnoc := (bounded_twice (e := e) h hne).snoc (x := .refused refreshed e') rfl rfl
    rw [List.append_assoc] at hsnoc
    exact hsnoc
  | exchanged h ih => exact ih
  | elapsed h hp ih => exact ih.snoc rfl rfl
  | dropped h hp ih => exact ih.snoc rfl rfl

end Bounds

/-! ## The calls of the resolver -/

/-- A command that called the resolver and did nothing since waits for it, with the mutex. -/
theorem isResolving_of_story {p : Phase} {tr : List Event} (h : Story p tr) (hl : tr.getLast? = some .lookup) :
    p.isResolving := by
  cases h with
  | resolving | resolvingAgain => trivial
  | exchanged h => cases h <;> simp at hl
  | _ => simp at hl

theorem isResolving_of_calling {s : State} {t : Nat} (h : Inv s) (hc : Calling s t) : (s.phase t).isResolving :=
  isResolving_of_story (h.story t) hc

/-! ## The error of a command -/

section Report

variable {tr : List Event} {c : Command} {o : Outcome Error (SocksAddress × Socket)}

theorem reports_append {xs : List Event} {endpoint : RemoteSocksEndpoint} {e : IoError}
    (hd : (dials xs).getLast? = some endpoint) (hr : (xs.filterMap Event.refusal).getLast? = some (endpoint, e))
    (tr : List Event) : ReportsLastDial (tr ++ xs) (err (fromIo e)) := by
  refine ⟨endpoint, e, ?_, ?_, rfl⟩
  · rw [dials_append, List.getLast?_append, hd]
    rfl
  · rw [List.filterMap_append, List.getLast?_append, hr]
    rfl

/-- A connection was made before the handshake. -/
theorem exists_connected {stream : Socket} (h : Story (.exchanging c stream) tr) :
    ∃ endpoint, .connected endpoint ∈ tr := by
  cases h with
  | @connected c endpoint => exact ⟨endpoint, List.mem_append_right _ (by simp)⟩
  | @connectedAgain c endpoint refreshed => exact ⟨refreshed, List.mem_append_right _ (by simp)⟩

/-- A command that dialed and did not connect reports its last dial, unless its deadline fired. -/
theorem reports_of_story (h : Story (.finished c o) tr) (hd : dials tr ≠ [])
    (hc : ∀ endpoint, .connected endpoint ∉ tr) (he : .elapsed ∉ tr) : ReportsLastDial tr o := by
  cases h with
  | unresolved => exact absurd rfl hd
  | notRefreshed h => exact reports_append rfl rfl _
  | refusedAgain h => exact reports_append rfl rfl _
  | exchanged h =>
    obtain ⟨endpoint, hmem⟩ := exists_connected h
    exact absurd hmem (hc endpoint)
  | elapsed => exact absurd (List.mem_append_right _ List.mem_cons_self) he

end Report

/-- **The cache and the dials follow the resolver.** For every interleaving of commands: the cache holds the endpoint
that the resolver gave last; no two calls of the resolver overlap; every dial goes to an endpoint of the resolver;
a command dials twice and calls the resolver twice at most, and dials again only another endpoint that a refresh gave
after the first dial had failed; and a command that dialed but did not connect reports the error of its last dial. -/
theorem endpoint_cache_invariant {b64 : Base64.Engine} {s : State} (h : Reachable (step b64) anyStep init s) :
    s.cachedEndpoint = lastOf Event.given s.log ∧
    (∀ t u, Calling s t → Calling s u → t = u) ∧
    Each Known s.log ∧
    (∀ t, Bounded (of s.log t)) ∧
    ∀ t c o, s.phase t = .finished c o → dials (of s.log t) ≠ [] → (∀ endpoint, .connected endpoint ∉ of s.log t) →
      .elapsed ∉ of s.log t → ReportsLastDial (of s.log t) o := by
  have hi : Inv s := inv_of_reachable h
  refine ⟨hi.cached, ?_, hi.known, fun t => bounded_of_story (hi.story t), ?_⟩
  · intro t u ht hu
    exact hi.serves.unique (isResolving_of_calling hi hu) (isResolving_of_calling hi ht)
  · intro t c o hph hd hc he
    exact reports_of_story (hph ▸ hi.story t) hd hc he

/-- The errors of a refused connection and of a host that is not there. -/
def connectionRefused : IoError := .os 111

def hostUnreachable : IoError := .os 113

/-- The endpoint at a port of a home server. -/
def endpointAt (port : UInt16) : RemoteSocksEndpoint := ⟨"10.0.0.1", port, "10.0.0.1:" ++ toString port, false⟩

/-- A `CONNECT` command. -/
def connect : Command := ⟨CONNECT_COMMAND, .Ip (.v4 (Ipv4Addr.new 1 1 1 1) 80)⟩

/-- Two commands dial one endpoint in vain. The deadline of the first fires while it refreshes; the second refreshes
then, dials another endpoint, and reports that error. -/
theorem endpoint_cache_invariant_two :
    let actions : List Action := [.call 0 connect, .call 1 connect, .resolved 0 (.ok (endpointAt 1080)), .grant 1,
      .dialed 0 (.error connectionRefused), .dialed 1 (.error connectionRefused), .deadline 0, .grant 1,
      .resolved 1 (.ok (endpointAt 1081)), .dialed 1 (.error hostUnreachable)]
    ∃ s, run (step Base64.standardNoPad) init actions = some s ∧ s.cachedEndpoint = lastOf Event.given s.log ∧
      ReportsLastDial (of s.log 1) (err (fromIo hostUnreachable)) := by
  intro actions
  have hrun : (run (step Base64.standardNoPad) init actions).isSome := rfl
  have hlog : of (Option.get _ hrun).log 1 = [.dial (endpointAt 1080), .refused (endpointAt 1080) connectionRefused,
    .lookup, .found (.ok (endpointAt 1081)), .dial (endpointAt 1081), .refused (endpointAt 1081) hostUnreachable] := rfl
  obtain ⟨hcache, -, -, -, hreports⟩ :=
    endpoint_cache_invariant (Reachable.of_run (fun _ _ _ => trivial) (Option.some_get hrun).symm)
  refine ⟨_, (Option.some_get hrun).symm, hcache, hreports 1 connect _ rfl (by rw [hlog]; exact List.cons_ne_nil _ _)
    ?_ ?_⟩
  · intro endpoint hmem
    rw [hlog] at hmem
    simp at hmem
  · intro hmem
    rw [hlog] at hmem
    simp at hmem

end LzcSdk.RemoteSocks.RemoteNetstack
