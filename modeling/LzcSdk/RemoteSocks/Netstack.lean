import LzcSdk.Lib.FairLock
import LzcSdk.Lib.History
import LzcSdk.Lib.Lts
import LzcSdk.RemoteSocks.Handshake

/-!
# The network stack and its endpoint cache

The clones of a network stack share a resolver and a cached proxy endpoint behind a mutex. A command looks up the
endpoint, dials it, and runs the handshake. When the first dial fails, the command asks the resolver again and dials
once more if the endpoint is another one. A lookup holds the mutex until the resolver has answered; a dial does not.
The deadline of a command may fire wherever it waits, and its caller may drop it there.

`step` is one step of the commands, the resolver or the network; the history of the resolver calls and dials is part of
the state. A step moves one command only, and adds what this command did to the history (`touches_step`).
-/

namespace LzcSdk.RemoteSocks

open Outcome ByteIo Lts History

/-- Validated `RemoteSocks` server endpoint returned by `HPortalSys`. -/
structure RemoteSocksEndpoint where
  host : String
  port : UInt16
  authority : String
  resolvesHostnameRemotely : Bool
  deriving DecidableEq, Repr

namespace RemoteNetstack

/-! ## The state -/

/-- A command and its address. -/
structure Command where
  command : UInt8
  address : SocksAddress

/-- Why a command asks for the endpoint: for its first dial, or after the dial of this endpoint failed. -/
inductive Lookup where
  | first
  | refresh (endpoint : RemoteSocksEndpoint) (firstError : Error)

/-- The argument of `proxy_endpoint`. -/
def Lookup.withCache : Lookup → Bool
  | first => true
  | refresh _ _ => false

/-- Where a command is: `waiting` for the mutex, `resolving` with the mutex, `dialing` for the first or the second
time, or `exchanging` the handshake. -/
inductive Phase where
  | idle
  | waiting (c : Command) (l : Lookup)
  | resolving (c : Command) (l : Lookup)
  | dialing (c : Command) (endpoint : RemoteSocksEndpoint) (again : Bool)
  | exchanging (c : Command) (stream : Socket)
  | finished (c : Command) (o : Outcome Error (SocksAddress × Socket))
  | cancelled (c : Command)

/-- What a command does that others see: calls of the resolver and their results, dials and their results, and the end
by the deadline or by the caller. -/
inductive Event where
  | lookup
  | found (r : Except Error RemoteSocksEndpoint)
  | dial (endpoint : RemoteSocksEndpoint)
  | refused (endpoint : RemoteSocksEndpoint) (error : IoError)
  | connected (endpoint : RemoteSocksEndpoint)
  | elapsed
  | dropped

structure State where
  lock : FairLock Nat
  cachedEndpoint : Option RemoteSocksEndpoint
  phase : Nat → Phase
  log : List (Nat × Event)

/-- The state when the stack is made. -/
def init : State := ⟨.free, none, fun _ => .idle, []⟩

/-- What can happen. -/
inductive Action where
  | call (t : Nat) (c : Command)
  | grant (t : Nat)
  | resolved (t : Nat) (r : Except Error RemoteSocksEndpoint)
  | dialed (t : Nat) (stream : Except IoError Socket)
  | exchanged (t : Nat)
  | deadline (t : Nat)
  | cancel (t : Nat)

/-! ## The steps -/

/-- What `connect_proxy` does with the result of `proxy_endpoint`: dial, dial again if the endpoint is another one, or
give up with the first error. -/
def connectProxy (c : Command) : Lookup → Except Error RemoteSocksEndpoint → Phase × List Event
  | .first, .ok endpoint => (.dialing c endpoint false, [.dial endpoint])
  | .first, .error e => (.finished c (err e), [])
  | .refresh _ firstError, .error _ => (.finished c (err firstError), [])
  | .refresh endpoint firstError, .ok refreshed =>
    if refreshed = endpoint then (.finished c (err firstError), [])
    else (.dialing c refreshed true, [.dial refreshed])

namespace State

/-- Change the phase of one command. -/
def set (s : State) (t : Nat) (p : Phase) : State := { s with phase := Function.update s.phase t p }

/-- Change the phase of one command that leaves the mutex, or does not have it. -/
def leave (s : State) (t : Nat) (p : Phase) : State := { s.set t p with lock := s.lock.release t }

/-- Put down what a command did. -/
def tell (s : State) (t : Nat) (es : List Event) : State := { s with log := s.log ++ note t es }

/-- Ask for the mutex. -/
def request (s : State) (t : Nat) (c : Command) (l : Lookup) : State :=
  { s.set t (.waiting c l) with lock := s.lock.acquire t }

/-- A command goes on with the result of `proxy_endpoint`. -/
def resume (s : State) (t : Nat) (c : Command) (l : Lookup) (r : Except Error RemoteSocksEndpoint) : State :=
  (s.leave t (connectProxy c l r).1).tell t (connectProxy c l r).2

/-- `proxy_endpoint` with the mutex: return the cached endpoint, or call the resolver. -/
def locked (s : State) (t : Nat) (c : Command) (l : Lookup) : State :=
  match l.withCache, s.cachedEndpoint with
  | true, some endpoint => s.resume t c l (.ok endpoint)
  | _, _ => (s.set t (.resolving c l)).tell t [.lookup]

/-- `proxy_endpoint`: a command that finds the mutex free does not wait. -/
def proxyEndpoint (s : State) (t : Nat) (c : Command) (l : Lookup) : State :=
  let s := s.request t c l
  if s.lock.holder = some t then s.locked t c l else s

/-- Keep an endpoint that the resolver gave. -/
def store (s : State) : Except Error RemoteSocksEndpoint → State
  | .ok endpoint => { s with cachedEndpoint := some endpoint }
  | .error _ => s

end State

/-- The command of a call that waits for something. -/
def Phase.awaiting : Phase → Option Command
  | waiting c _ => some c
  | resolving c _ => some c
  | dialing c _ _ => some c
  | exchanging c _ => some c
  | _ => none

theorem awaiting_of_phase {s : State} {t : Nat} {p : Phase} {c : Command} (h : s.phase t = p)
    (hp : p.awaiting = some c) : (s.phase t).awaiting ≠ none := by
  rw [h, hp]
  exact Option.some_ne_none c

section Step

variable (b64 : Base64.Engine)

/-- The state after an action, if it is enabled. -/
def step (s : State) : Action → Option State
  | .call t c =>
    match s.phase t with
    | .idle => some (s.proxyEndpoint t c .first)
    | _ => none
  | .grant t =>
    match s.phase t with
    | .waiting c l => if s.lock.holder = some t then some (s.locked t c l) else none
    | _ => none
  | .resolved t r =>
    match s.phase t with
    | .resolving c l => some (((s.store r).tell t [.found r]).resume t c l r)
    | _ => none
  | .dialed t stream =>
    match s.phase t, stream with
    | .dialing c endpoint _, .ok stream => some ((s.set t (.exchanging c stream)).tell t [.connected endpoint])
    | .dialing c endpoint false, .error e =>
      some ((s.tell t [.refused endpoint e]).proxyEndpoint t c (.refresh endpoint (fromIo e)))
    | .dialing c endpoint true, .error e =>
      some ((s.set t (.finished c (err (fromIo e)))).tell t [.refused endpoint e])
    | _, _ => none
  | .exchanged t =>
    match s.phase t with
    | .exchanging c stream =>
      some (s.set t (.finished c (performCommandWithDeadline b64 (ok stream) c.command c.address)))
    | _ => none
  | .deadline t =>
    match (s.phase t).awaiting with
    | some c => some ((s.leave t (.finished c (err .remoteSocksTimeout))).tell t [.elapsed])
    | none => none
  | .cancel t =>
    match (s.phase t).awaiting with
    | some c => some ((s.leave t (.cancelled c)).tell t [.dropped])
    | none => none

/-- The steps, one constructor for each thing that can happen. -/
inductive Trans (s : State) : Action → State → Prop
  | call {t : Nat} {c : Command} (hph : s.phase t = .idle) : Trans s (.call t c) (s.proxyEndpoint t c .first)
  | grant {t : Nat} {c : Command} {l : Lookup} (hph : s.phase t = .waiting c l) (hh : s.lock.holder = some t) :
    Trans s (.grant t) (s.locked t c l)
  | resolved {t : Nat} {c : Command} {l : Lookup} {r : Except Error RemoteSocksEndpoint}
    (hph : s.phase t = .resolving c l) : Trans s (.resolved t r) (((s.store r).tell t [.found r]).resume t c l r)
  | connected {t : Nat} {c : Command} {endpoint : RemoteSocksEndpoint} {again : Bool} {stream : Socket}
    (hph : s.phase t = .dialing c endpoint again) :
    Trans s (.dialed t (.ok stream)) ((s.set t (.exchanging c stream)).tell t [.connected endpoint])
  | refused {t : Nat} {c : Command} {endpoint : RemoteSocksEndpoint} {e : IoError}
    (hph : s.phase t = .dialing c endpoint false) :
    Trans s (.dialed t (.error e)) ((s.tell t [.refused endpoint e]).proxyEndpoint t c (.refresh endpoint (fromIo e)))
  | refusedAgain {t : Nat} {c : Command} {endpoint : RemoteSocksEndpoint} {e : IoError}
    (hph : s.phase t = .dialing c endpoint true) :
    Trans s (.dialed t (.error e)) ((s.set t (.finished c (err (fromIo e)))).tell t [.refused endpoint e])
  | exchanged {t : Nat} {c : Command} {stream : Socket} (hph : s.phase t = .exchanging c stream) :
    Trans s (.exchanged t)
      (s.set t (.finished c (performCommandWithDeadline b64 (ok stream) c.command c.address)))
  | deadline {t : Nat} {c : Command} (hc : (s.phase t).awaiting = some c) :
    Trans s (.deadline t) ((s.leave t (.finished c (err .remoteSocksTimeout))).tell t [.elapsed])
  | cancel {t : Nat} {c : Command} (hc : (s.phase t).awaiting = some c) :
    Trans s (.cancel t) ((s.leave t (.cancelled c)).tell t [.dropped])

variable {b64}

theorem trans_of_step {s s' : State} {act : Action} (h : step b64 s act = some s') : Trans b64 s act s' := by
  cases act with
  | call t c =>
    simp only [step] at h
    split at h <;> cases h
    exact .call ‹_›
  | grant t =>
    simp only [step] at h
    split at h
    · split at h <;> cases h
      exact .grant ‹_› ‹_›
    · cases h
  | resolved t r =>
    simp only [step] at h
    split at h <;> cases h
    exact .resolved ‹_›
  | dialed t stream =>
    simp only [step] at h
    split at h <;> cases h
    · exact .connected ‹_›
    · exact .refused ‹_›
    · exact .refusedAgain ‹_›
  | exchanged t =>
    simp only [step] at h
    split at h <;> cases h
    exact .exchanged ‹_›
  | deadline t =>
    simp only [step] at h
    split at h <;> cases h
    exact .deadline ‹_›
  | cancel t =>
    simp only [step] at h
    split at h <;> cases h
    exact .cancel ‹_›

end Step

/-! ## One command a step -/

/-- What a step does: one command goes on and puts down some events. -/
structure Touches (s s' : State) (t : Nat) (es : List Event) : Prop where
  log : s'.log = s.log ++ note t es
  others : ∀ u, u ≠ t → s'.phase u = s.phase u

/-- No dial fails. -/
def Quiet (es : List Event) : Prop := ∀ endpoint e, .refused endpoint e ∉ es

section Frame

variable {b64 : Base64.Engine} {s r s' : State} {t : Nat} {es more : List Event}

theorem Touches.trans (h : Touches s r t es) (h' : Touches r s' t more) : Touches s s' t (es ++ more) := by
  refine ⟨?_, fun u hu => (h'.others u hu).trans (h.others u hu)⟩
  rw [h'.log, h.log, note_append, List.append_assoc]

theorem touches_tell (s : State) (t : Nat) (p : Phase) (es : List Event) : Touches s ((s.set t p).tell t es) t es :=
  ⟨rfl, fun _ hu => Function.update_of_ne hu _ _⟩

theorem touches_leave (s : State) (t : Nat) (p : Phase) (es : List Event) : Touches s ((s.leave t p).tell t es) t es :=
  ⟨rfl, fun _ hu => Function.update_of_ne hu _ _⟩

theorem quiet_connectProxy (c : Command) (l : Lookup) (x : Except Error RemoteSocksEndpoint) :
    Quiet (connectProxy c l x).2 := by
  intro endpoint e hmem
  unfold connectProxy at hmem
  split at hmem
  · cases List.mem_singleton.1 hmem
  · cases hmem
  · cases hmem
  · split at hmem
    · cases hmem
    · cases List.mem_singleton.1 hmem

theorem touches_locked (s : State) (t : Nat) (c : Command) (l : Lookup) :
    ∃ es, Touches s (s.locked t c l) t es ∧ Quiet es := by
  unfold State.locked
  split
  · exact ⟨_, touches_leave s t _ _, quiet_connectProxy _ _ _⟩
  · exact ⟨_, touches_tell s t _ _, by simp [Quiet]⟩

/-- Neither asking for the mutex nor having it makes a dial fail. -/
theorem touches_proxyEndpoint (s : State) (t : Nat) (c : Command) (l : Lookup) :
    ∃ es, Touches s (s.proxyEndpoint t c l) t es ∧ Quiet es := by
  have hreq : Touches s (s.request t c l) t [] :=
    ⟨(List.append_nil _).symm, fun _ hu => Function.update_of_ne hu _ _⟩
  unfold State.proxyEndpoint
  dsimp only
  split
  · obtain ⟨es, ht, hq⟩ := touches_locked (s.request t c l) t c l
    exact ⟨_, hreq.trans ht, hq⟩
  · exact ⟨[], hreq, by simp [Quiet]⟩

/-- The command of an action. -/
def Action.task : Action → Nat
  | call t _ => t
  | grant t => t
  | resolved t _ => t
  | dialed t _ => t
  | exchanged t => t
  | deadline t => t
  | cancel t => t

/-- A step moves one command, which waits for something or is called. No dial fails in it, unless it is the failure of
a dial. -/
theorem touches_step {act : Action} (ha : step b64 s act = some s') :
    ∃ es, Touches s s' act.task es ∧ ((s.phase act.task).awaiting ≠ none ∨ ∃ c, act = .call act.task c) ∧
      (Quiet es ∨ ∃ c endpoint again e, act = .dialed act.task (.error e) ∧
        s.phase act.task = .dialing c endpoint again) := by
  cases trans_of_step ha with
  | @call t c hph =>
    obtain ⟨es, ht, hq⟩ := touches_proxyEndpoint s t c .first
    exact ⟨es, ht, .inr ⟨c, rfl⟩, .inl hq⟩
  | @grant t c l hph =>
    obtain ⟨es, ht, hq⟩ := touches_locked s t c l
    exact ⟨es, ht, .inl (awaiting_of_phase hph rfl), .inl hq⟩
  | @resolved t c l x hph =>
    have hstore : Touches s ((s.store x).tell t [.found x]) t [.found x] := by
      cases x <;> exact ⟨rfl, fun _ _ => rfl⟩
    refine ⟨_, hstore.trans (touches_leave _ t _ _), .inl (awaiting_of_phase hph rfl), .inl ?_⟩
    intro endpoint e hmem
    rcases List.mem_append.1 hmem with hmem | hmem
    · cases List.mem_singleton.1 hmem
    · exact quiet_connectProxy c l x endpoint e hmem
  | connected hph => exact ⟨_, touches_tell s _ _ _, .inl (awaiting_of_phase hph rfl), .inl (by simp [Quiet])⟩
  | @refused t c endpoint e hph =>
    have htell : Touches s (s.tell t [.refused endpoint e]) t [.refused endpoint e] := ⟨rfl, fun _ _ => rfl⟩
    obtain ⟨es, ht, -⟩ := touches_proxyEndpoint (s.tell t [.refused endpoint e]) t c (.refresh endpoint (fromIo e))
    exact ⟨_, htell.trans ht, .inl (awaiting_of_phase hph rfl), .inr ⟨c, endpoint, false, e, rfl, hph⟩⟩
  | @refusedAgain t c endpoint e hph =>
    exact ⟨_, touches_tell s t _ _, .inl (awaiting_of_phase hph rfl), .inr ⟨c, endpoint, true, e, rfl, hph⟩⟩
  | exchanged hph =>
    exact ⟨[], ⟨(List.append_nil _).symm, fun _ hu => Function.update_of_ne hu _ _⟩,
      .inl (awaiting_of_phase hph rfl), .inl (by simp [Quiet])⟩
  | deadline hc => exact ⟨_, touches_leave s _ _ _, .inl (awaiting_of_phase rfl hc), .inl (by simp [Quiet])⟩
  | cancel hc => exact ⟨_, touches_leave s _ _ _, .inl (awaiting_of_phase rfl hc), .inl (by simp [Quiet])⟩

/-- What one command does leaves the others where they are. -/
theorem others_of_run {u : Nat} (hu : u ≠ t) : ∀ {as : List Action} {s s' : State},
    (∀ a ∈ as, a.task = t) → run (step b64) s as = some s' → s'.phase u = s.phase u := by
  intro as
  induction as with
  | nil =>
    rintro s s' - ⟨⟩
    rfl
  | cons a as ih =>
    intro s s' htask hr
    obtain ⟨r, ha, hr⟩ := Option.bind_eq_some_iff.1 hr
    obtain ⟨es, ht, -⟩ := touches_step ha
    rw [htask a List.mem_cons_self] at ht
    exact (ih (fun b hb => htask b (List.mem_cons_of_mem a hb)) hr).trans (ht.others u hu)

end Frame

end RemoteNetstack

end LzcSdk.RemoteSocks
