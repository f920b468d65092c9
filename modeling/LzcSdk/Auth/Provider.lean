import LzcSdk.Auth.Token
import LzcSdk.Lib.FairLock
import LzcSdk.Lib.History
import LzcSdk.Lib.Lts
import LzcSdk.Lib.Multimap

/-!
# The token provider

The clones of a token provider share a cached token behind a mutex. A call of `token` takes the mutex and returns the
cached token, or requests another one from the device and keeps the mutex until the device has answered. A request
through the authenticated service calls `token` first, and then goes to the inner channel with the token in a header.
A caller may drop its call wherever it waits.

`step` is one step of the calls, the device, the inner channel or the clocks; the wall clock and the monotonic clock
go on together. What each call did is part of the state, as a history. `trans_of_step` says what a step can do.
-/

namespace LzcSdk

open Outcome Lts History

/-! ## Requests of the authenticated service -/

abbrev HeaderName := String

abbrev HeaderValue := List UInt8

/-- A request: its headers, and all the rest of it. -/
structure Request where
  headers : Multimap HeaderName HeaderValue
  rest : List UInt8
  deriving DecidableEq, Repr

structure Response where
  bytes : List UInt8
  deriving DecidableEq, Repr

def AUTH_TOKEN_HEADER : HeaderName := "lzc_dapi_auth_token"

/-- What a token provider is made of: the credentials, and two functions of the packages it uses, which read a
timestamp as a time (`SystemTime::try_from`) and say which bytes a header value may have. -/
structure TokenProvider where
  credentials : ClientCredentials
  systemTimeTryFrom : Timestamp → Option SystemTime
  isHeaderByte : UInt8 → Bool

namespace TokenProvider

variable (p : TokenProvider)

/-- `HeaderValue::try_from`: the bytes of the text, if a header value may have them. -/
def headerValueTryFrom (text : String) : Option HeaderValue :=
  if (Text.bytes text).all p.isHeaderByte then some (Text.bytes text) else none

/-- Put a token into the headers of a request. -/
def inject (request : Request) (k : AuthToken) : Except Error Request :=
  match p.headerValueTryFrom k.token with
  | some value => .ok { request with headers := request.headers.insert AUTH_TOKEN_HEADER value }
  | none => .error .invalidAuthTokenMetadata

/-! ## The state -/

/-- A call of `token`, or a request through the authenticated service. -/
inductive Call where
  | token
  | request (request : Request)

/-- Where a call is: `waiting` for the mutex, `requesting` a token from the device with the mutex, or `forwarding` its
request to the inner channel; `answered` is the end of a request that got there. -/
inductive Phase where
  | idle
  | waiting (c : Call)
  | requesting (c : Call)
  | forwarding (sent : Request)
  | finished (c : Call) (o : Outcome Error AuthToken)
  | answered (o : Outcome Error Response)
  | cancelled

/-- What a call does: it asks for the mutex, finds a token in the cache at some time, sends a request to the device,
gets a token or none from it, or goes on to the inner channel. -/
inductive Event where
  | called (c : Call)
  | served (k : AuthToken) (now : Instant)
  | requested (request : RequestAuthTokenRequest)
  | obtained (k : AuthToken)
  | failed (o : Outcome Error AuthToken)
  | forwarded (sent : Request)
  | dropped

structure State where
  lock : FairLock Nat
  cached : Option AuthToken
  phase : Nat → Phase
  systemNow : SystemTime
  instantNow : Instant
  log : List (Nat × Event)

/-- The state when the provider is made. -/
def init (systemNow : SystemTime) (instantNow : Instant) : State :=
  ⟨.free, none, fun _ => .idle, systemNow, instantNow, []⟩

/-- What can happen. -/
inductive Action where
  | call (t : Nat) (c : Call)
  | grant (t : Nat)
  | respond (t : Nat) (r : Except Nat RequestAuthTokenResponse)
  | inner (t : Nat) (response : Option Response)
  | cancel (t : Nat)
  | tick (d : Duration)

/-! ## The steps -/

namespace State

/-- Change the phase of one call. -/
def set (s : State) (t : Nat) (ph : Phase) : State := { s with phase := Function.update s.phase t ph }

/-- Change the phase of one call that leaves the mutex, or does not have it. -/
def leave (s : State) (t : Nat) (ph : Phase) : State := { s.set t ph with lock := s.lock.release t }

/-- Put down what a call did. -/
def tell (s : State) (t : Nat) (es : List Event) : State := { s with log := s.log ++ note t es }

/-- `token` ends without a token. -/
def fail (s : State) (t : Nat) (c : Call) (o : Outcome Error AuthToken) : State :=
  (s.leave t (.finished c o)).tell t [.failed o]

/-- Keep a token that the device gave. -/
def store (s : State) (k : AuthToken) : State := { s with cached := some k }

end State

/-- A call goes on with the result of `token`: it returns it, or sends its request on. -/
def afterToken (k : AuthToken) : Call → Phase × List Event
  | .token => (.finished .token (ok k), [])
  | .request request =>
    match p.inject request k with
    | .ok sent => (.forwarding sent, [.forwarded sent])
    | .error e => (.finished (.request request) (err e), [])

/-- `token` ends with a token. -/
def State.resume (s : State) (t : Nat) (c : Call) (k : AuthToken) (e : Event) : State :=
  (s.leave t (p.afterToken k c).1).tell t (e :: (p.afterToken k c).2)

/-- `request_auth_token`, up to the answer of the device. -/
def State.requestAuthToken (s : State) (t : Nat) (c : Call) : State :=
  match p.credentials.authRequestMaterial with
  | .ok request => (s.set t (.requesting c)).tell t [.requested request]
  | .error e => s.fail t c (err e)

/-- `token` with the mutex: return the cached token, or request another one. -/
def State.locked (s : State) (t : Nat) (c : Call) : State :=
  match s.cached with
  | some k =>
    if !k.shouldRefresh s.instantNow then s.resume p t c k (.served k s.instantNow) else s.requestAuthToken p t c
  | none => s.requestAuthToken p t c

/-- `request_auth_token`, from the answer of the device on. -/
def answer (s : State) : Except Nat RequestAuthTokenResponse → Outcome Error AuthToken
  | .error code => err (.grpcStatus code)
  | .ok response => AuthToken.fromResponse p.systemTimeTryFrom response s.systemNow s.instantNow

/-- The call waits for something. -/
def Phase.isAwaiting : Phase → Bool
  | waiting _ => true
  | requesting _ => true
  | forwarding _ => true
  | _ => false

/-- The state after an action, if it is enabled. -/
def step (s : State) : Action → Option State
  | .call t c =>
    match s.phase t with
    | .idle => some ({ s.set t (.waiting c) with lock := s.lock.acquire t }.tell t [.called c])
    | _ => none
  | .grant t =>
    match s.phase t with
    | .waiting c => if s.lock.holder = some t then some (s.locked p t c) else none
    | _ => none
  | .respond t r =>
    match s.phase t with
    | .requesting c =>
      match p.answer s r with
      | ok k => some ((s.store k).resume p t c k (.obtained k))
      | o => some (s.fail t c o)
    | _ => none
  | .inner t response =>
    match s.phase t with
    | .forwarding _ => some (s.set t (.answered (okOr .transport response)))
    | _ => none
  | .cancel t =>
    if (s.phase t).isAwaiting then some ((s.leave t .cancelled).tell t [.dropped]) else none
  | .tick d =>
    match s.systemNow.checkedAdd d, s.instantNow.checkedAdd d with
    | some systemNow, some instantNow => some { s with systemNow := systemNow, instantNow := instantNow }
    | _, _ => none

/-! ## What a step can do -/

/-- The steps, one for each way in which a call can go on. -/
inductive Trans (s : State) : Action → State → Prop where
  | call {t : Nat} {c : Call} (hph : s.phase t = .idle) :
    Trans s (.call t c) ({ s.set t (.waiting c) with lock := s.lock.acquire t }.tell t [.called c])
  | serve {t : Nat} {c : Call} {k : AuthToken} (hph : s.phase t = .waiting c) (hold : s.lock.holder = some t)
    (hk : s.cached = some k) (hfresh : k.shouldRefresh s.instantNow = false) :
    Trans s (.grant t) (s.resume p t c k (.served k s.instantNow))
  | request {t : Nat} {c : Call} {request : RequestAuthTokenRequest} (hph : s.phase t = .waiting c)
    (hold : s.lock.holder = some t) (hdue : ∀ k, s.cached = some k → k.shouldRefresh s.instantNow = true)
    (hreq : p.credentials.authRequestMaterial = .ok request) :
    Trans s (.grant t) ((s.set t (.requesting c)).tell t [.requested request])
  | unsigned {t : Nat} {c : Call} {e : Error} (hph : s.phase t = .waiting c) (hold : s.lock.holder = some t)
    (hdue : ∀ k, s.cached = some k → k.shouldRefresh s.instantNow = true)
    (hreq : p.credentials.authRequestMaterial = .error e) : Trans s (.grant t) (s.fail t c (err e))
  | obtain {t : Nat} {c : Call} {r : Except Nat RequestAuthTokenResponse} {k : AuthToken}
    (hph : s.phase t = .requesting c) (hk : p.answer s r = ok k) :
    Trans s (.respond t r) ((s.store k).resume p t c k (.obtained k))
  | fail {t : Nat} {c : Call} {r : Except Nat RequestAuthTokenResponse} (hph : s.phase t = .requesting c)
    (hno : ∀ k, p.answer s r ≠ ok k) : Trans s (.respond t r) (s.fail t c (p.answer s r))
  | inner {t : Nat} {sent : Request} {response : Option Response} (hph : s.phase t = .forwarding sent) :
    Trans s (.inner t response) (s.set t (.answered (okOr .transport response)))
  | cancel {t : Nat} (hph : (s.phase t).isAwaiting) : Trans s (.cancel t) ((s.leave t .cancelled).tell t [.dropped])
  | tick {d : Duration} {systemNow : SystemTime} {instantNow : Instant} (hs : s.systemNow.checkedAdd d = some systemNow)
    (hi : s.instantNow.checkedAdd d = some instantNow) :
    Trans s (.tick d) { s with systemNow := systemNow, instantNow := instantNow }

section Trans

variable {p} {s s' : State} {a : Action} {t : Nat} {c : Call}

/-- The rest of `token` when the cached token does not serve. -/
theorem trans_requestAuthToken (hph : s.phase t = .waiting c) (hold : s.lock.holder = some t)
    (hdue : ∀ k, s.cached = some k → k.shouldRefresh s.instantNow = true) :
    Trans p s (.grant t) (s.requestAuthToken p t c) := by
  unfold State.requestAuthToken
  split
  · rename_i request hreq
    exact .request hph hold hdue hreq
  · rename_i e hreq
    exact .unsigned hph hold hdue hreq

theorem trans_locked (hph : s.phase t = .waiting c) (hold : s.lock.holder = some t) :
    Trans p s (.grant t) (s.locked p t c) := by
  unfold State.locked
  split
  · rename_i k hk
    cases hdue : k.shouldRefresh s.instantNow with
    | false => exact .serve hph hold hk hdue
    | true =>
      refine trans_requestAuthToken hph hold fun k' hk' => ?_
      rw [hk] at hk'
      cases hk'
      exact hdue
  · rename_i hk
    exact trans_requestAuthToken hph hold fun k' hk' => absurd (hk.symm.trans hk') (by simp)

theorem trans_of_step (h : step p s a = some s') : Trans p s a s' := by
  cases a with
  | call t c =>
    simp only [step] at h
    split at h <;> cases h
    exact .call ‹_›
  | grant t =>
    simp only [step] at h
    split at h
    · split at h <;> cases h
      exact trans_locked ‹_› ‹_›
    · cases h
  | respond t r =>
    simp only [step] at h
    split at h
    · rename_i c hph
      split at h <;> cases h
      · exact .obtain hph ‹_›
      · rename_i hno
        exact .fail hph hno
    · cases h
  | inner t response =>
    simp only [step] at h
    split at h <;> cases h
    exact .inner ‹_›
  | cancel t =>
    simp only [step] at h
    split at h <;> cases h
    exact .cancel ‹_›
  | tick d =>
    simp only [step] at h
    split at h <;> cases h
    exact .tick ‹_› ‹_›

end Trans

end TokenProvider

end LzcSdk
