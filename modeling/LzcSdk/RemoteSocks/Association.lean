import LzcSdk.Lib.FairLock
import LzcSdk.Lib.Lts
import LzcSdk.RemoteSocks.AddressCodec
import LzcSdk.RemoteSocks.Udp

/-!
# An associated UDP socket

A standard association sends and receives datagrams through a UDP socket and the proxy's relay, for as long as the
proxy keeps the control stream open. A task of its own reads the control stream and sets a flag when it ends; the
receiver of this flag is behind a mutex that sends and receives share. A send holds the mutex only to read the flag. A
receive holds it until it returns: it waits for the flag to change or for a datagram, whichever comes first.

`step` is one step of the calls, the monitoring task, the UDP socket or the proxy. The queue of the mutex agrees with
the calls, and the flag is down while the control stream is open (`Inv`, `inv_of_reachable`).
-/

namespace LzcSdk.RemoteSocks

open Outcome ByteIo Lts

def SOCKS_UDP_PREFIX : List UInt8 := [0, 0, 0]

/-! ## The datagrams of the relay -/

section Packets

variable (b64 : Base64.Engine)

/-- The datagram that carries a payload to the relay. -/
def associatedFrame (payload : List UInt8) (target : SocksAddress) : Outcome Error (List UInt8) := do
  let address ← SocksAddress.encode b64 target
  let frameLength := SOCKS_UDP_PREFIX.length + address.length + payload.length
  if MAX_UDP_PAYLOAD < frameLength then err .socksUdpPayloadTooLarge
  else return SOCKS_UDP_PREFIX ++ address ++ payload

/-- The result of a send whose datagram the UDP socket took, or not. -/
def sendResult (payload frame : List UInt8) (written : Except IoError Nat) : Outcome Error Nat :=
  match written with
  | .error error => err (fromIo error)
  | .ok written =>
    if written ≠ frame.length then err (fromIo (.writeZero "short SOCKS UDP datagram write"))
    else ok payload.length

/-- What the UDP socket took of a datagram. -/
def transmitted (frame : List UInt8) : Except IoError Nat → List (List UInt8)
  | .ok written => [frame.take written]
  | .error _ => []

/-- Put a datagram into the packet buffer; what does not fit is cut off, and old bytes stay behind it. -/
def fillPacket (packet datagram : List UInt8) : List UInt8 × Nat :=
  let received := datagram.take packet.length
  (received ++ packet.drop received.length, received.length)

/-- What a receive makes of the `length` bytes that the relay sent. -/
def parsePacket (payload packet : List UInt8) (length : Nat) : Outcome Error Received :=
  if length < SOCKS_UDP_PREFIX.length then err .invalidSocksUdpHeader
  else do
    let reserved ← sliceTo packet 2
    if reserved ≠ [0, 0] then err .invalidSocksUdpHeader
    else
      let fragment ← index packet 2
      if fragment ≠ 0 then err (.unsupportedSocksUdpFragment fragment)
      else
        let (source, consumed) ← SocksAddress.decodePrefix b64 (← slice packet 3 length)
        let datagram ← slice packet (3 + consumed) length
        let (copied, payload) := copyPayload payload datagram
        return ⟨copied, source, payload⟩

end Packets

/-! ## The state -/

/-- An association: the codec it uses, the relay it negotiated, and its fixed peer. -/
structure Association where
  b64 : Base64.Engine
  relay : SocketAddr
  peerAddr : Option SocksAddress

namespace Association

/-- A call on the socket. -/
inductive Call where
  | send (c : SendCall)
  | recv (c : RecvCall)
  deriving DecidableEq, Repr

/-- What a call returns. -/
inductive Answer where
  | sent (length : Nat)
  | received (r : Received)
  deriving DecidableEq, Repr

/-- What a call does with the mutex. -/
inductive Work where
  | send (payload : List UInt8) (target : SocksAddress)
  | receive (payload : List UInt8)
  deriving DecidableEq, Repr

/-- Where a call is: `queued` for the mutex, `selecting` with the mutex between the flag and a datagram, or `sending`
its datagram. -/
inductive Phase where
  | idle
  | entering (c : Call)
  | queued (c : Call) (w : Work)
  | selecting (c : RecvCall) (payload packet : List UInt8)
  | sending (c : SendCall) (payload frame : List UInt8)
  | finished (c : Call) (o : Outcome Error Answer)
  | cancelled (c : Call)
  deriving DecidableEq, Repr

/-- The control stream: open, ended, or ended and reported by the task that monitors it. -/
inductive Control where
  | live
  | over
  | reported
  deriving DecidableEq, Repr

/-- The receiver of the flag: its value, whether it has changed since the receiver last waited for a change, and
whether there is still a sender. -/
structure Watch where
  value : Bool
  changed : Bool
  sender : Bool
  deriving DecidableEq, Repr

structure State where
  lock : FairLock Nat
  phase : Nat → Phase
  control : Control
  watch : Watch
  arrived : List (SocketAddr × List UInt8)
  handed : List (List UInt8)

/-- The state when the association is made. -/
def init : State := ⟨.free, fun _ => .idle, .live, ⟨false, false, true⟩, [], []⟩

/-- What can happen. -/
inductive Action where
  | call (t : Nat) (c : Call)
  | enter (t : Nat)
  | grant (t : Nat)
  | datagram (t : Nat)
  | changed (t : Nat)
  | socketError (t : Nat) (error : IoError)
  | transmit (t : Nat) (written : Except IoError Nat)
  | cancel (t : Nat)
  | arrive (source : SocketAddr) (bytes : List UInt8)
  | controlData
  | controlEnd
  | report

/-! ## The steps -/

/-- Change the phase of one call. -/
def State.set (s : State) (t : Nat) (p : Phase) : State := { s with phase := Function.update s.phase t p }

/-- Change the phase of one call that leaves the mutex. -/
def State.leave (s : State) (t : Nat) (p : Phase) : State := { s.set t p with lock := s.lock.release t }

variable (a : Association)

/-- What a call is to do, or its error before it asks for the mutex. -/
def prepare : Call → Outcome Error Work
  | .send (.sendTo payload target) => sendTo (fun payload target => ok (.send payload target)) payload target
  | .send (.send payload) => RemoteSocks.send (fun payload target => ok (.send payload target)) a.peerAddr payload
  | .recv (.recvFrom payload) => ok (.receive payload)
  | .recv (.recv payload) => do
    let _ ← okOr .socksUdpNotConnected a.peerAddr
    ok (.receive payload)

/-- The error that a closed control stream gives. -/
def closed (c : Call) : Phase := .finished c (err .remoteSocksControlClosed)

/-- A send that has read the flag goes on without the mutex. -/
def afterFlag (c : SendCall) (payload : List UInt8) (target : SocksAddress) : Phase :=
  match associatedFrame a.b64 payload target with
  | ok frame => .sending c payload frame
  | err e => .finished (.send c) (err e)
  | panicked => .finished (.send c) panicked

/-- A receive that took a datagram from the relay returns it, fails, or goes on to the next call of `recv`. -/
def afterPacket (c : RecvCall) : Outcome Error Received → Phase
  | ok r =>
    match c.again a.peerAddr r with
    | some c' => .entering (.recv c')
    | none => .finished (.recv c) (ok (.received r))
  | err e => .finished (.recv c) (err e)
  | panicked => .finished (.recv c) panicked

/-- The state after an action, if it is enabled. -/
def step (s : State) : Action → Option State
  | .call t c =>
    match s.phase t with
    | .idle => some (s.set t (.entering c))
    | _ => none
  | .enter t =>
    match s.phase t with
    | .entering c =>
      match a.prepare c with
      | ok w => some { s.set t (.queued c w) with lock := s.lock.acquire t }
      | err e => some (s.set t (.finished c (err e)))
      | panicked => some (s.set t (.finished c panicked))
    | _ => none
  | .grant t =>
    match s.phase t with
    | .queued c w =>
      if s.lock.holder ≠ some t then none
      else if s.watch.value then some (s.leave t (closed c))
      else
        match c, w with
        | .send c, .send payload target => some (s.leave t (a.afterFlag c payload target))
        | .recv c, .receive payload => some (s.set t (.selecting c payload (List.replicate MAX_UDP_PAYLOAD 0)))
        | _, _ => none
    | _ => none
  | .datagram t =>
    match s.phase t, s.arrived with
    | .selecting c payload packet, (source, bytes) :: arrived =>
      let s := { s with arrived }
      let (packet, length) := fillPacket packet bytes
      if source = a.relay then some (s.leave t (a.afterPacket c (parsePacket a.b64 payload packet length)))
      else if s.watch.value then some (s.leave t (closed (.recv c)))
      else some (s.set t (.selecting c payload packet))
    | _, _ => none
  | .changed t =>
    match s.phase t with
    | .selecting c _ _ =>
      if s.watch.changed ∨ s.watch.sender = false then
        some { s.leave t (closed (.recv c)) with watch := { s.watch with changed := false } }
      else none
    | _ => none
  | .socketError t error =>
    match s.phase t with
    | .selecting c _ _ => some (s.leave t (.finished (.recv c) (err (fromIo error))))
    | _ => none
  | .transmit t written =>
    match s.phase t with
    | .sending c payload frame =>
      some { s.set t (.finished (.send c) (sendResult payload frame written >>= fun n => ok (.sent n))) with
        handed := s.handed ++ transmitted frame written }
    | _ => none
  | .cancel t =>
    match s.phase t with
    | .queued c _ => some (s.leave t (.cancelled c))
    | .selecting c _ _ => some (s.leave t (.cancelled (.recv c)))
    | .sending c _ _ => some (s.set t (.cancelled (.send c)))
    | _ => none
  | .arrive source bytes => some { s with arrived := s.arrived ++ [(source, bytes)] }
  | .controlData => if s.control = .live then some s else none
  | .controlEnd => if s.control = .live then some { s with control := .over } else none
  | .report => if s.control = .over then some { s with control := .reported, watch := ⟨true, true, false⟩ } else none

/-- The steps, one constructor for each thing that can happen. -/
inductive Trans (s : State) : Action → State → Prop
  | call {t : Nat} {c : Call} (hph : s.phase t = .idle) : Trans s (.call t c) (s.set t (.entering c))
  | enter {t : Nat} {c : Call} {w : Work} (hph : s.phase t = .entering c) (hp : a.prepare c = ok w) :
    Trans s (.enter t) { s.set t (.queued c w) with lock := s.lock.acquire t }
  | refuse {t : Nat} {c : Call} {o : Outcome Error Answer} (hph : s.phase t = .entering c)
    (hp : ∀ w, a.prepare c ≠ ok w) (ho : o = a.prepare c >>= fun _ => panicked) :
    Trans s (.enter t) (s.set t (.finished c o))
  | closed {t : Nat} {c : Call} {w : Work} (hph : s.phase t = .queued c w) (hh : s.lock.holder = some t)
    (hv : s.watch.value = true) : Trans s (.grant t) (s.leave t (closed c))
  | flag {t : Nat} {c : SendCall} {payload : List UInt8} {target : SocksAddress}
    (hph : s.phase t = .queued (.send c) (.send payload target)) (hh : s.lock.holder = some t)
    (hv : s.watch.value = false) : Trans s (.grant t) (s.leave t (a.afterFlag c payload target))
  | select {t : Nat} {c : RecvCall} {payload : List UInt8} (hph : s.phase t = .queued (.recv c) (.receive payload))
    (hh : s.lock.holder = some t) (hv : s.watch.value = false) :
    Trans s (.grant t) (s.set t (.selecting c payload (List.replicate MAX_UDP_PAYLOAD 0)))
  | relayed {t : Nat} {c : RecvCall} {payload packet bytes : List UInt8} {arrived : List (SocketAddr × List UInt8)}
    (hph : s.phase t = .selecting c payload packet) (harr : s.arrived = (a.relay, bytes) :: arrived) :
    Trans s (.datagram t) ({ s with arrived }.leave t
      (a.afterPacket c (parsePacket a.b64 payload (fillPacket packet bytes).1 (fillPacket packet bytes).2)))
  | foreignClosed {t : Nat} {c : RecvCall} {payload packet bytes : List UInt8} {source : SocketAddr}
    {arrived : List (SocketAddr × List UInt8)} (hph : s.phase t = .selecting c payload packet)
    (harr : s.arrived = (source, bytes) :: arrived) (hne : source ≠ a.relay) (hv : s.watch.value = true) :
    Trans s (.datagram t) ({ s with arrived }.leave t (Association.closed (.recv c)))
  | foreign {t : Nat} {c : RecvCall} {payload packet bytes : List UInt8} {source : SocketAddr}
    {arrived : List (SocketAddr × List UInt8)} (hph : s.phase t = .selecting c payload packet)
    (harr : s.arrived = (source, bytes) :: arrived) (hne : source ≠ a.relay) (hv : s.watch.value = false) :
    Trans s (.datagram t) ({ s with arrived }.set t (.selecting c payload (fillPacket packet bytes).1))
  | changed {t : Nat} {c : RecvCall} {payload packet : List UInt8} (hph : s.phase t = .selecting c payload packet)
    (hc : s.watch.changed = true ∨ s.watch.sender = false) :
    Trans s (.changed t) { s.leave t (Association.closed (.recv c)) with watch := { s.watch with changed := false } }
  | socketError {t : Nat} {c : RecvCall} {payload packet : List UInt8} {error : IoError}
    (hph : s.phase t = .selecting c payload packet) :
    Trans s (.socketError t error) (s.leave t (.finished (.recv c) (err (fromIo error))))
  | transmit {t : Nat} {c : SendCall} {payload frame : List UInt8} {written : Except IoError Nat}
    (hph : s.phase t = .sending c payload frame) :
    Trans s (.transmit t written)
      { s.set t (.finished (.send c) (sendResult payload frame written >>= fun n => ok (.sent n))) with
        handed := s.handed ++ transmitted frame written }
  | leaveQueue {t : Nat} {c : Call} {w : Work} (hph : s.phase t = .queued c w) :
    Trans s (.cancel t) (s.leave t (.cancelled c))
  | abandon {t : Nat} {c : RecvCall} {payload packet : List UInt8} (hph : s.phase t = .selecting c payload packet) :
    Trans s (.cancel t) (s.leave t (.cancelled (.recv c)))
  | abandonSend {t : Nat} {c : SendCall} {payload frame : List UInt8} (hph : s.phase t = .sending c payload frame) :
    Trans s (.cancel t) (s.set t (.cancelled (.send c)))
  | arrive {source : SocketAddr} {bytes : List UInt8} :
    Trans s (.arrive source bytes) { s with arrived := s.arrived ++ [(source, bytes)] }
  | controlData (hc : s.control = .live) : Trans s .controlData s
  | controlEnd (hc : s.control = .live) : Trans s .controlEnd { s with control := .over }
  | report (hc : s.control = .over) : Trans s .report { s with control := .reported, watch := ⟨true, true, false⟩ }

variable {a}

theorem trans_of_step {s s' : State} {act : Action} (h : a.step s act = some s') : a.Trans s act s' := by
  cases act with
  | call t c =>
    simp only [step] at h
    split at h <;> cases h
    exact .call ‹_›
  | enter t =>
    simp only [step] at h
    split at h
    · split at h <;> cases h
      · exact .enter ‹_› ‹_›
      · rename_i hp; exact .refuse ‹_› (by simp [hp]) (by rw [hp, err_bind])
      · rename_i hp; exact .refuse ‹_› (by simp [hp]) (by rw [hp, panicked_bind])
    · cases h
  | grant t =>
    simp only [step] at h
    split at h
    · rename_i hph
      split at h
      · cases h
      · rename_i hh
        split at h
        · rename_i hv; cases h; exact .closed hph (not_not.1 hh) hv
        · rename_i hv
          split at h <;> cases h
          · exact .flag hph (not_not.1 hh) (by simpa using hv)
          · exact .select hph (not_not.1 hh) (by simpa using hv)
    · cases h
  | datagram t =>
    simp only [step] at h
    split at h
    · rename_i hph harr
      split at h
      · rename_i hs; subst hs; cases h; exact .relayed hph harr
      · rename_i hs
        split at h <;> rename_i hv <;> cases h
        · exact .foreignClosed hph harr hs hv
        · exact .foreign hph harr hs (by simpa using hv)
    · cases h
  | changed t =>
    simp only [step] at h
    split at h
    · split at h <;> cases h
      exact .changed ‹_› ‹_›
    · cases h
  | socketError t error =>
    simp only [step] at h
    split at h <;> cases h
    exact .socketError ‹_›
  | transmit t written =>
    simp only [step] at h
    split at h <;> cases h
    exact .transmit ‹_›
  | cancel t =>
    simp only [step] at h
    split at h <;> cases h
    · exact .leaveQueue ‹_›
    · exact .abandon ‹_›
    · exact .abandonSend ‹_›
  | arrive source bytes => cases h; exact .arrive
  | controlData =>
    simp only [step] at h
    split at h <;> cases h
    exact .controlData ‹_›
  | controlEnd =>
    simp only [step] at h
    split at h <;> cases h
    exact .controlEnd ‹_›
  | report =>
    simp only [step] at h
    split at h <;> cases h
    exact .report ‹_›

/-! ## The invariant -/

namespace Phase

/-- The call is in the queue of the mutex. -/
def inQueue : Phase → Prop
  | queued _ _ => True
  | selecting _ _ _ => True
  | _ => False

/-- The call has the mutex between two await points. -/
def isSelecting : Phase → Prop
  | selecting _ _ _ => True
  | _ => False

theorem not_isSelecting_of_not_inQueue {p : Phase} (h : ¬ p.inQueue) : ¬ p.isSelecting := by
  cases p <;> first | exact h | exact id

end Phase

theorem not_inQueue_afterFlag (c : SendCall) (payload : List UInt8) (target : SocksAddress) :
    ¬ (a.afterFlag c payload target).inQueue := by
  unfold afterFlag
  split <;> exact id

theorem not_inQueue_afterPacket (c : RecvCall) (o : Outcome Error Received) : ¬ (a.afterPacket c o).inQueue := by
  unfold afterPacket
  split
  · split <;> exact id
  · exact id
  · exact id

variable (a) in
/-- The queue of the mutex agrees with the calls, a queued call does the work it was prepared for, and the flag is up
when the end of the control stream has been reported, and only then. -/
structure Inv (s : State) : Prop where
  serves : s.lock.Serves s.phase Phase.inQueue Phase.isSelecting
  prepared : ∀ t c w, s.phase t = .queued c w → a.prepare c = ok w
  flag : s.control ≠ .reported → s.watch = ⟨false, false, true⟩
  reported : s.control = .reported → s.watch.value = true ∧ s.watch.sender = false

section Keep

variable {s s' : State} {t : Nat} {p : Phase}

theorem prepared_update (h : a.Inv s) (hp : ∀ c w, p = .queued c w → a.prepare c = ok w) (u : Nat) (c : Call) (w : Work)
    (hu : Function.update s.phase t p u = .queued c w) : a.prepare c = ok w := by
  rcases eq_or_ne u t with rfl | hne
  · rw [Function.update_self] at hu
    exact hp c w hu
  · rw [Function.update_of_ne hne] at hu
    exact h.prepared u c w hu

/-- A call that leaves the queue, or was not in it. -/
theorem Inv.leave (h : a.Inv s) (hp : ¬ p.inQueue) : a.Inv (s.leave t p) :=
  ⟨h.serves.release hp (Phase.not_isSelecting_of_not_inQueue hp),
    prepared_update h (fun _ _ hq => absurd (hq ▸ trivial) hp), h.flag, h.reported⟩

/-- A call that stays out of the queue. -/
theorem Inv.set (h : a.Inv s) (ht : ¬ (s.phase t).inQueue) (hp : ¬ p.inQueue) : a.Inv (s.set t p) :=
  ⟨h.serves.keep ⟨fun hq => absurd hq hp, fun hq => absurd hq ht⟩
      fun hs => absurd hs (Phase.not_isSelecting_of_not_inQueue hp),
    prepared_update h (fun _ _ hq => absurd (hq ▸ trivial) hp), h.flag, h.reported⟩

/-- A receive that holds the mutex. -/
theorem Inv.select (h : a.Inv s) (ht : (s.phase t).inQueue) (hh : s.lock.holder = some t) (c : RecvCall)
    (payload packet : List UInt8) : a.Inv (s.set t (.selecting c payload packet)) :=
  ⟨h.serves.keep (p := Phase.selecting c payload packet) ⟨fun _ => ht, fun _ => trivial⟩ fun _ => hh,
    prepared_update h (fun _ _ hq => nomatch hq), h.flag, h.reported⟩

theorem inv_init : a.Inv init :=
  ⟨⟨fun _ => ⟨(nomatch ·), (nomatch ·)⟩, fun _ => (nomatch ·)⟩, fun _ _ _ => (nomatch ·), fun _ => rfl, (nomatch ·)⟩

theorem inv_step {act : Action} (h : a.Inv s) (ha : a.Trans s act s') : a.Inv s' := by
  have arrived : ∀ arrived, a.Inv { s with arrived } := fun _ => ⟨h.serves, h.prepared, h.flag, h.reported⟩
  cases ha with
  | call hph => exact h.set (by rw [hph]; exact id) id
  | @enter t c w hph hp =>
    exact ⟨h.serves.acquire (p := Phase.queued c w) trivial id,
      prepared_update h (by rintro c' w' ⟨⟩; exact hp), h.flag, h.reported⟩
  | refuse hph => exact h.set (by rw [hph]; exact id) id
  | closed | socketError | leaveQueue | abandon => exact h.leave id
  | flag => exact h.leave (not_inQueue_afterFlag _ _ _)
  | select hph hh => exact h.select (by rw [hph]; trivial) hh _ _ _
  | relayed => exact (arrived _).leave (not_inQueue_afterPacket _ _)
  | foreignClosed => exact (arrived _).leave id
  | @foreign t c payload packet bytes source rest hph harr hne hv =>
    exact (arrived rest).select (by rw [hph]; trivial) (h.serves.holder t (by rw [hph]; trivial)) _ _ _
  | @changed t c payload packet hph hc =>
    -- with the sender gone the flag has been reported
    have hrep : s.control = .reported := by
      by_contra hn
      rw [h.flag hn] at hc
      simp at hc
    have hl := h.leave (t := t) (p := Association.closed (.recv c)) id
    exact ⟨hl.serves, hl.prepared, fun hn => absurd hrep hn, h.reported⟩
  | @transmit t c payload frame written hph =>
    have hs : a.Inv (s.set t (.finished (.send c) (sendResult payload frame written >>= fun n => ok (.sent n)))) :=
      h.set (by rw [hph]; exact id) id
    exact ⟨hs.serves, hs.prepared, h.flag, h.reported⟩
  | abandonSend hph => exact h.set (by rw [hph]; exact id) id
  | arrive => exact arrived _
  | controlData => exact h
  | controlEnd hc => exact ⟨h.serves, h.prepared, fun _ => h.flag (by simp [hc]), (nomatch ·)⟩
  | report hc => exact ⟨h.serves, h.prepared, fun hn => absurd rfl hn, fun _ => ⟨rfl, rfl⟩⟩

end Keep

theorem inv_of_reachable {guard : State → Action → Prop} {s : State} (h : Reachable a.step guard init s) : a.Inv s :=
  h.invariant inv_init fun _ _ _ hi _ ha => inv_step hi (trans_of_step ha)

end Association

end LzcSdk.RemoteSocks
