import LzcSdk.Lib.FairLock
import LzcSdk.Lib.Lts
import LzcSdk.Lib.Steps
import LzcSdk.RemoteSocks.Handshake

/-!
# A TCP listener

`bind_tcp` performs a BIND command and keeps its connection for the first accept. An accept takes this connection, or
performs another BIND command of the assigned local address on a connection of its own, and then waits for the second
reply on the connection it has. The mutex is held only while the kept connection is taken.

`step` is one step of the accepts, of the proxy or of the network. A connection has all the bytes that the proxy will
send from its start (`born`), and the moves of the machine are the portions in which they are read. Which accept got
which connection is recorded (`taken`); no step looks at it.
-/

namespace LzcSdk.RemoteSocks

open Outcome ByteIo Lts

/-- TCP stream transported through a `LazyCat` `RemoteSocks` proxy. Its connection is a socket, or the number of one. -/
structure RemoteTcpStream (σ : Type) where
  inner : σ
  localAddr : SocksAddress
  peerAddr : SocksAddress
  deriving DecidableEq, Repr

/-- A listener: the codec of its network stack and the address that the proxy assigned. -/
structure RemoteTcpListener where
  b64 : Base64.Engine
  localAddr : SocksAddress

/-- Bind a listener; the connection of the command is kept for the first accept. -/
def bindTcp (b64 : Base64.Engine) (elapsed : Bool) (connectProxy : Outcome Error Socket) (address : SocksAddress) :
    Outcome Error (RemoteTcpListener × Socket) := do
  let (localAddr, stream) ← performCommand b64 elapsed connectProxy BIND_COMMAND address
  return (⟨b64, localAddr⟩, stream)

namespace RemoteTcpListener

/-! ## The state -/

/-- Where an accept is: `queued` for the mutex, `dialing` the proxy or `commanding` it to bind once more, or `replying`,
which waits for the second reply. -/
inductive Phase where
  | idle
  | queued
  | dialing
  | commanding (stream : Nat) (x : Waiting Error SocksAddress)
  | replying (stream : Nat) (localAddr : SocksAddress) (x : Waiting Error SocksAddress)
  | finished (o : Outcome Error (RemoteTcpStream Nat))
  | cancelled

structure State where
  lock : FairLock Nat
  pending : Option Nat
  phase : Nat → Phase
  dialled : Nat
  born : Nat → Wire
  wire : Nat → Wire
  taken : List (Nat × Nat)

/-- The state when the listener is bound: connection `0` was dialled, and is kept as the command left it. -/
def init (dialled stream : Socket) : State :=
  ⟨.free, some 0, fun _ => .idle, 1, fun _ => dialled.flat, fun _ => stream.flat, []⟩

/-- What can happen. -/
inductive Action where
  | call (t : Nat)
  | grant (t : Nat)
  | dialed (t : Nat) (input : List UInt8) (ending : Ending) (room : Option Nat)
  | refused (t : Nat) (error : Error)
  | move (t : Nat) (m : Move)
  | deadline (t : Nat)
  | cancel (t : Nat)

/-! ## The steps -/

namespace State

/-- Change the phase of one accept. -/
def set (s : State) (t : Nat) (p : Phase) : State := { s with phase := Function.update s.phase t p }

/-- Change the phase of one accept that leaves the mutex, or does not have it. -/
def leave (s : State) (t : Nat) (p : Phase) : State := { s.set t p with lock := s.lock.release t }

/-- Change the bytes of one connection. -/
def onWire (s : State) (i : Nat) (w : Wire) : State := { s with wire := Function.update s.wire i w }

/-- Hand a connection to an accept. -/
def give (s : State) (t i : Nat) : State := { s with taken := s.taken ++ [(t, i)] }

/-- One more connection. -/
def dial (s : State) (w : Wire) : State :=
  { s with
    dialled := s.dialled + 1
    born := Function.update s.born s.dialled w
    wire := Function.update s.wire s.dialled w }

end State

/-- The second reply ends an accept. -/
def afterReply (i : Nat) (localAddr : SocksAddress) : Progress Error SocksAddress → Phase
  | .waiting x => .replying i localAddr x
  | .done (ok peerAddr) => .finished (ok ⟨i, localAddr, peerAddr⟩)
  | .done (err e) => .finished (err e)
  | .done panicked => .finished panicked

variable (l : RemoteTcpListener)

/-- After the command of an accept its second reply is read. -/
def afterCommand (i : Nat) : Progress Error SocksAddress → Phase
  | .waiting x => .commanding i x
  | .done (ok localAddr) => afterReply i localAddr (readReply l.b64).settle
  | .done (err e) => .finished (err e)
  | .done panicked => .finished panicked

/-- The accept waits for something. -/
def Phase.isAwaiting : Phase → Bool
  | queued => true
  | dialing => true
  | commanding _ _ => true
  | replying _ _ _ => true
  | _ => false

/-- The accept performs a command, which has a deadline. -/
def Phase.isPerforming : Phase → Bool
  | dialing => true
  | commanding _ _ => true
  | _ => false

/-- The state after an action, if it is enabled. -/
def step (s : State) : Action → Option State
  | .call t =>
    match s.phase t with
    | .idle => some { s.set t .queued with lock := s.lock.acquire t }
    | _ => none
  | .grant t =>
    match s.phase t with
    | .queued =>
      if s.lock.holder ≠ some t then none
      else
        match s.pending with
        | some i =>
          some { (s.leave t (afterReply i l.localAddr (readReply l.b64).settle)).give t i with pending := none }
        | none => some (s.leave t .dialing)
    | _ => none
  | .dialed t input ending room =>
    match s.phase t with
    | .dialing =>
      let exchange := exchange l.b64 BIND_COMMAND l.localAddr
      some (((s.dial ⟨input, ending, ⟨[], room⟩⟩).set t (l.afterCommand s.dialled exchange.settle)).give t s.dialled)
    | _ => none
  | .refused t error =>
    match s.phase t with
    | .dialing => some (s.set t (.finished (err error)))
    | _ => none
  | .move t m =>
    match s.phase t with
    | .commanding i x =>
      match x.move (s.wire i) m with
      | some (r, w) => some ((s.set t (l.afterCommand i r)).onWire i w)
      | none => none
    | .replying i localAddr x =>
      match x.move (s.wire i) m with
      | some (r, w) => some ((s.set t (afterReply i localAddr r)).onWire i w)
      | none => none
    | _ => none
  | .deadline t =>
    if (s.phase t).isPerforming then some (s.set t (.finished (err .remoteSocksTimeout))) else none
  | .cancel t => if (s.phase t).isAwaiting then some (s.leave t .cancelled) else none

/-- The steps, one constructor for each thing that can happen. -/
inductive Trans (s : State) : Action → State → Prop
  | call {t : Nat} (hph : s.phase t = .idle) : Trans s (.call t) { s.set t .queued with lock := s.lock.acquire t }
  | take {t i : Nat} (hph : s.phase t = .queued) (hh : s.lock.holder = some t) (hp : s.pending = some i) :
    Trans s (.grant t)
      { (s.leave t (afterReply i l.localAddr (readReply l.b64).settle)).give t i with pending := none }
  | rebind {t : Nat} (hph : s.phase t = .queued) (hh : s.lock.holder = some t) (hp : s.pending = none) :
    Trans s (.grant t) (s.leave t .dialing)
  | dialed {t : Nat} {input : List UInt8} {ending : Ending} {room : Option Nat} (hph : s.phase t = .dialing) :
    Trans s (.dialed t input ending room)
      (((s.dial ⟨input, ending, ⟨[], room⟩⟩).set t
        (l.afterCommand s.dialled (exchange l.b64 BIND_COMMAND l.localAddr).settle)).give t s.dialled)
  | refused {t : Nat} {error : Error} (hph : s.phase t = .dialing) :
    Trans s (.refused t error) (s.set t (.finished (err error)))
  | command {t i : Nat} {x : Waiting Error SocksAddress} {m : Move} {r : Progress Error SocksAddress} {w : Wire}
    (hph : s.phase t = .commanding i x) (hm : x.move (s.wire i) m = some (r, w)) :
    Trans s (.move t m) ((s.set t (l.afterCommand i r)).onWire i w)
  | reply {t i : Nat} {localAddr : SocksAddress} {x : Waiting Error SocksAddress} {m : Move}
    {r : Progress Error SocksAddress} {w : Wire} (hph : s.phase t = .replying i localAddr x)
    (hm : x.move (s.wire i) m = some (r, w)) : Trans s (.move t m) ((s.set t (afterReply i localAddr r)).onWire i w)
  | deadline {t : Nat} (hph : (s.phase t).isPerforming = true) :
    Trans s (.deadline t) (s.set t (.finished (err .remoteSocksTimeout)))
  | cancel {t : Nat} (hph : (s.phase t).isAwaiting = true) : Trans s (.cancel t) (s.leave t .cancelled)

variable {l}

theorem trans_of_step {s s' : State} {act : Action} (h : l.step s act = some s') : l.Trans s act s' := by
  cases act with
  | call t =>
    simp only [step] at h
    split at h <;> cases h
    exact .call ‹_›
  | grant t =>
    simp only [step] at h
    split at h
    · split at h
      · cases h
      · rename_i hh
        split at h <;> cases h
        · exact .take ‹_› (not_not.1 hh) ‹_›
        · exact .rebind ‹_› (not_not.1 hh) ‹_›
    · cases h
  | dialed t input ending room =>
    simp only [step] at h
    split at h <;> cases h
    exact .dialed ‹_›
  | refused t error =>
    simp only [step] at h
    split at h <;> cases h
    exact .refused ‹_›
  | move t m =>
    simp only [step] at h
    split at h
    · split at h <;> cases h
      exact .command ‹_› ‹_›
    · split at h <;> cases h
      exact .reply ‹_› ‹_›
    · cases h
  | deadline t =>
    simp only [step] at h
    split at h <;> cases h
    exact .deadline ‹_›
  | cancel t =>
    simp only [step] at h
    split at h <;> cases h
    exact .cancel ‹_›

/-! ## What an accept still has to do -/

/-- A command and its second reply on one connection. -/
def acceptProgram (b64 : Base64.Engine) (address : SocksAddress) : Prog Error (SocksAddress × SocksAddress) := do
  let localAddr ← exchange b64 BIND_COMMAND address
  let peerAddr ← readReply b64
  return (localAddr, peerAddr)

/-- The second reply, with the address of the first one. -/
def withLocal (localAddr : SocksAddress) (r : Outcome Error SocksAddress × Wire) :
    Outcome Error (SocksAddress × SocksAddress) × Wire := (r.1 >>= fun peerAddr => ok (localAddr, peerAddr), r.2)

/-- The second reply after a command, if it succeeded. -/
def thenReply (b64 : Base64.Engine) :
    Outcome Error SocksAddress × Wire → Outcome Error (SocksAddress × SocksAddress) × Wire
  | (ok localAddr, w) => withLocal localAddr ((readReply b64).eval w)
  | (err e, w) => (err e, w)
  | (panicked, w) => (panicked, w)

theorem eval_acceptProgram (b64 : Base64.Engine) (address : SocksAddress) (w : Wire) :
    (acceptProgram b64 address).eval w = thenReply b64 ((exchange b64 BIND_COMMAND address).eval w) := by
  rw [acceptProgram, Prog.eval_bind]
  rcases (exchange b64 BIND_COMMAND address).eval w with ⟨_ | _ | _, w'⟩
  · simp only [thenReply, Prog.eval_bind, withLocal]
    rcases (readReply b64).eval w' with ⟨_ | _ | _, w''⟩ <;> rfl
  · rfl
  · rfl

namespace Phase

/-- The connection of an accept. -/
def stream : Phase → Option Nat
  | commanding i _ => some i
  | replying i _ _ => some i
  | finished (ok s) => some s.inner
  | _ => none

/-- The accept has no connection yet. -/
def isBefore : Phase → Prop
  | idle => True
  | queued => True
  | dialing => True
  | _ => False

/-- What comes of an accept whose connection nobody else uses. -/
def rest (b64 : Base64.Engine) (w : Wire) : Phase → Option (Outcome Error (SocksAddress × SocksAddress) × Wire)
  | commanding _ x => some (thenReply b64 (x.eval w))
  | replying _ localAddr x => some (withLocal localAddr (x.eval w))
  | finished (ok s) => some (ok (s.localAddr, s.peerAddr), w)
  | _ => none

end Phase

/-- What a portion, or the end of a program, makes of an accept: it keeps its connection, or gives it up. -/
structure Continues (b64 : Base64.Engine) (p : Phase) (i : Nat) (w : Wire)
    (o : Outcome Error (SocksAddress × SocksAddress) × Wire) : Prop where
  stream : ∀ j, p.stream = some j → j = i
  rest : ∀ o', p.rest b64 w = some o' → o' = o
  after : ¬ p.isBefore

/-- An accept that has given its connection up. -/
theorem continues_of_none {b64 : Base64.Engine} {p : Phase} {w : Wire} (hs : p.stream = none)
    (hr : p.rest b64 w = none) (hb : ¬ p.isBefore) (i : Nat)
    (o : Outcome Error (SocksAddress × SocksAddress) × Wire) : Continues b64 p i w o := by
  refine ⟨fun j hj => ?_, fun o' ho => ?_, hb⟩
  · rw [hs] at hj
    cases hj
  · rw [hr] at ho
    cases ho

theorem continues_afterReply (b64 : Base64.Engine) (i : Nat) (localAddr : SocksAddress)
    (r : Progress Error SocksAddress)
    (w : Wire) : Continues b64 (afterReply i localAddr r) i w (withLocal localAddr (r.eval w)) := by
  rcases r with (peerAddr | e | _) | x
  · exact ⟨fun j hj => (Option.some.inj hj).symm, fun o ho => (Option.some.inj ho).symm, id⟩
  · exact continues_of_none rfl rfl id i _
  · exact continues_of_none rfl rfl id i _
  · exact ⟨fun j hj => (Option.some.inj hj).symm, fun o ho => (Option.some.inj ho).symm, id⟩

theorem continues_afterCommand (l : RemoteTcpListener) (i : Nat) (r : Progress Error SocksAddress) (w : Wire) :
    Continues l.b64 (l.afterCommand i r) i w (thenReply l.b64 (r.eval w)) := by
  rcases r with (localAddr | e | _) | x
  · have h := continues_afterReply l.b64 i localAddr (readReply l.b64).settle w
    rw [eval_settle] at h
    exact h
  · exact continues_of_none rfl rfl id i _
  · exact continues_of_none rfl rfl id i _
  · exact ⟨fun j hj => (Option.some.inj hj).symm, fun o ho => (Option.some.inj ho).symm, id⟩

/-! ## The invariant -/

variable (l) in
/-- The address of the command on a connection; connection `0` is that of `bind_tcp`. -/
def requested (address : SocksAddress) (i : Nat) : SocksAddress := if i = 0 then address else l.localAddr

variable (l) in
/-- What comes of a connection that is used for one accept. -/
def whole (address : SocksAddress) (s : State) (i : Nat) : Outcome Error (SocksAddress × SocksAddress) × Wire :=
  (acceptProgram l.b64 (l.requested address i)).eval (s.born i)

variable (l) in
/-- Every connection is given to one accept, and every accept gets one; it does there what it would do alone. -/
structure Inv (address : SocksAddress) (s : State) : Prop where
  distinct : (s.taken.map Prod.snd).Nodup
  once : (s.taken.map Prod.fst).Nodup
  started : ∀ t i, (t, i) ∈ s.taken → ¬ (s.phase t).isBefore
  below : ∀ t i, (t, i) ∈ s.taken → i < s.dialled
  first : 0 < s.dialled
  kept : ∀ i, s.pending = some i → i = 0 ∧ (∀ t, (t, 0) ∉ s.taken) ∧
    withLocal l.localAddr ((readReply l.b64).eval (s.wire 0)) = l.whole address s 0
  owned : ∀ t i, (s.phase t).stream = some i → (t, i) ∈ s.taken
  follows : ∀ t i o, (s.phase t).stream = some i → (s.phase t).rest l.b64 (s.wire i) = some o → o = l.whole address s i
  fresh : ∀ i, i < s.dialled → (s.born i).sink.sent = []
  sent : ∀ i, i < s.dialled → (s.wire i).sink.sent <+: (l.whole address s i).2.sink.sent

section Keep

variable {address : SocksAddress} {s s' : State} {t u i j : Nat} {p : Phase}

theorem Inv.stream_unique (h : l.Inv address s) (ht : (t, i) ∈ s.taken) (hu : (u, i) ∈ s.taken) : u = t :=
  congrArg Prod.fst (List.inj_on_of_nodup_map h.distinct hu ht rfl)

theorem Inv.accept_unique (h : l.Inv address s) (hi : (t, i) ∈ s.taken) (hj : (t, j) ∈ s.taken) : j = i :=
  congrArg Prod.snd (List.inj_on_of_nodup_map h.once hj hi rfl)

/-- An accept without a connection goes on without one, or gives its connection up. -/
theorem Inv.set (h : l.Inv address s) (hp : p.stream = none) (hb : p.isBefore → (s.phase t).isBefore)
    (hph : s'.phase = Function.update s.phase t p) (hpending : s'.pending = s.pending)
    (hdialled : s'.dialled = s.dialled)
    (hborn : s'.born = s.born) (hwire : s'.wire = s.wire) (htaken : s'.taken = s.taken) : l.Inv address s' := by
  have hwhole : ∀ i, l.whole address s' i = l.whole address s i := fun i => by rw [whole, whole, hborn]
  refine ⟨htaken ▸ h.distinct, htaken ▸ h.once, fun u i hu => ?_, ?_, hdialled ▸ h.first, ?_, fun u i hu => ?_,
    fun u i o hu ho => ?_, ?_, ?_⟩
  · rw [htaken] at hu
    rw [hph]
    rcases eq_or_ne u t with rfl | hne
    · rw [Function.update_self]
      exact fun hbefore => h.started u i hu (hb hbefore)
    · rw [Function.update_of_ne hne]
      exact h.started u i hu
  · rw [htaken, hdialled]
    exact h.below
  · rw [hpending, hwire, htaken, hwhole]
    exact h.kept
  · rw [hph] at hu
    rw [htaken]
    rcases eq_or_ne u t with rfl | hne
    · rw [Function.update_self, hp] at hu
      cases hu
    · rw [Function.update_of_ne hne] at hu
      exact h.owned u i hu
  · rw [hph] at hu ho
    rw [hwire] at ho
    rw [hwhole]
    rcases eq_or_ne u t with rfl | hne
    · rw [Function.update_self, hp] at hu
      cases hu
    · rw [Function.update_of_ne hne] at hu ho
      exact h.follows u i o hu ho
  · rw [hdialled, hborn]
    exact h.fresh
  · simp only [hdialled, hwire, hwhole]
    exact h.sent

/-- A portion on the connection of an accept. -/
theorem Inv.move (h : l.Inv address s) {w : Wire} (ht : (s.phase t).stream = some i)
    (hc : Continues l.b64 p i w (l.whole address s i)) (hsent : w.sink.sent <+: (l.whole address s i).2.sink.sent) :
    l.Inv address ((s.set t p).onWire i w) := by
  have hmem := h.owned t i ht
  refine ⟨h.distinct, h.once, fun u j hu => ?_, h.below, h.first, fun j hj => ?_, fun u j hu => ?_,
    fun u j o hu ho => ?_, h.fresh, fun j hj => ?_⟩
  · rcases eq_or_ne u t with rfl | hne
    · rw [show ((s.set u p).onWire i w).phase u = p from Function.update_self ..]
      exact hc.after
    · rw [show ((s.set t p).onWire i w).phase u = s.phase u from Function.update_of_ne hne ..]
      exact h.started u j hu
  · obtain ⟨hz, hfree, hrest⟩ := h.kept j hj
    have hi : 0 ≠ i := by
      rintro rfl
      exact hfree t hmem
    refine ⟨hz, hfree, ?_⟩
    rw [show ((s.set t p).onWire i w).wire 0 = s.wire 0 from Function.update_of_ne hi ..]
    exact hrest
  · rcases eq_or_ne u t with rfl | hne
    · rw [show ((s.set u p).onWire i w).phase u = p from Function.update_self ..] at hu
      rw [hc.stream j hu]
      exact hmem
    · rw [show ((s.set t p).onWire i w).phase u = s.phase u from Function.update_of_ne hne ..] at hu
      exact h.owned u j hu
  · rcases eq_or_ne u t with rfl | hne
    · rw [show ((s.set u p).onWire i w).phase u = p from Function.update_self ..] at hu ho
      obtain rfl := hc.stream j hu
      rw [show ((s.set u p).onWire j w).wire j = w from Function.update_self ..] at ho
      exact hc.rest o ho
    · rw [show ((s.set t p).onWire i w).phase u = s.phase u from Function.update_of_ne hne ..] at hu ho
      have hj : j ≠ i := by
        rintro rfl
        exact hne (h.stream_unique hmem (h.owned u j hu))
      rw [show ((s.set t p).onWire i w).wire j = s.wire j from Function.update_of_ne hj ..] at ho
      exact h.follows u j o hu ho
  · rcases eq_or_ne j i with rfl | hne
    · rw [show ((s.set t p).onWire j w).wire j = w from Function.update_self ..]
      exact hsent
    · rw [show ((s.set t p).onWire i w).wire j = s.wire j from Function.update_of_ne hne ..]
      exact h.sent j hj

end Keep

section Steps

variable {address : SocksAddress} {s s' : State} {act : Action}

theorem sent_of_eval {x : Waiting Error SocksAddress} {w w' : Wire} {m : Move} {r : Progress Error SocksAddress}
    (hm : x.move w m = some (r, w')) : w'.sink.sent <+: (x.eval w).2.sink.sent := by
  rw [← eval_move hm]
  cases r with
  | done o => exact List.prefix_rfl
  | waiting y => exact y.sent_prefix_eval w'

/-- What was sent in a command is still sent after its second reply. -/
theorem sent_thenReply (b64 : Base64.Engine) (r : Outcome Error SocksAddress × Wire) :
    r.2.sink.sent <+: (thenReply b64 r).2.sink.sent := by
  rcases r with ⟨_ | _ | _, w⟩
  · exact Prog.sent_prefix_eval (readReply b64) w
  · exact List.prefix_rfl
  · exact List.prefix_rfl

/-- An accept gets a connection that nobody had. -/
theorem Inv.give (h : l.Inv address s) {t i : Nat} {p : Phase} (hb : (s.phase t).isBefore)
    (hfree : ∀ u, (u, i) ∉ s.taken) (hc : Continues l.b64 p i (s'.wire i) (l.whole address s' i))
    (hph : s'.phase = Function.update s.phase t p) (htaken : s'.taken = s.taken ++ [(t, i)])
    (hle : s.dialled ≤ s'.dialled) (hi : i < s'.dialled)
    (hsame : ∀ j, j < s.dialled → s'.born j = s.born j ∧ s'.wire j = s.wire j)
    (hkept : ∀ j, s'.pending = some j → s.pending = some j ∧ j ≠ i)
    (hfresh : ∀ j, j < s'.dialled → (s'.born j).sink.sent = [])
    (hsent : ∀ j, j < s'.dialled → (s'.wire j).sink.sent <+: (l.whole address s' j).2.sink.sent) :
    l.Inv address s' := by
  have hwhole : ∀ j, j < s.dialled → l.whole address s' j = l.whole address s j := by
    intro j hj
    rw [whole, whole, (hsame j hj).1]
  have hnot : ∀ j, (t, j) ∉ s.taken := fun j hj => h.started t j hj hb
  have mem : ∀ u j, (u, j) ∈ s'.taken ↔ (u, j) ∈ s.taken ∨ (u = t ∧ j = i) := by
    intro u j
    rw [htaken, List.mem_append, List.mem_singleton, Prod.mk.injEq]
  refine ⟨?_, ?_, fun u j hu => ?_, fun u j hu => ?_, Nat.lt_of_lt_of_le h.first hle, fun j hj => ?_, fun u j hu => ?_,
    fun u j o hu ho => ?_, hfresh, hsent⟩
  · rw [htaken, List.map_append]
    refine h.distinct.append (List.nodup_singleton _) ?_
    rintro j hj hj'
    obtain ⟨⟨u, j'⟩, hu, rfl⟩ := List.mem_map.1 hj
    cases List.mem_singleton.1 hj'
    exact hfree u hu
  · rw [htaken, List.map_append]
    refine h.once.append (List.nodup_singleton _) ?_
    rintro u hu hu'
    obtain ⟨⟨u', j⟩, hmem, rfl⟩ := List.mem_map.1 hu
    cases List.mem_singleton.1 hu'
    exact hnot j hmem
  · rw [hph]
    rcases (mem u j).1 hu with hu | ⟨rfl, -⟩
    · have hne : u ≠ t := by
        rintro rfl
        exact hnot j hu
      rw [Function.update_of_ne hne]
      exact h.started u j hu
    · rw [Function.update_self]
      exact hc.after
  · rcases (mem u j).1 hu with hu | ⟨-, rfl⟩
    · exact Nat.lt_of_lt_of_le (h.below u j hu) hle
    · exact hi
  · obtain ⟨hj, hne⟩ := hkept j hj
    obtain ⟨rfl, hnone, hrest⟩ := h.kept j hj
    refine ⟨rfl, fun u hu => ?_, ?_⟩
    · rcases (mem u 0).1 hu with hu | ⟨-, hz⟩
      · exact hnone u hu
      · exact hne hz
    · rw [(hsame 0 h.first).2, hwhole 0 h.first]
      exact hrest
  · rw [hph] at hu
    rcases eq_or_ne u t with rfl | hne
    · rw [Function.update_self] at hu
      exact (mem u j).2 (.inr ⟨rfl, hc.stream j hu⟩)
    · rw [Function.update_of_ne hne] at hu
      exact (mem u j).2 (.inl (h.owned u j hu))
  · rw [hph] at hu ho
    rcases eq_or_ne u t with rfl | hne
    · rw [Function.update_self] at hu ho
      obtain rfl := hc.stream j hu
      exact hc.rest o ho
    · rw [Function.update_of_ne hne] at hu ho
      have hj := h.below u j (h.owned u j hu)
      rw [(hsame j hj).2] at ho
      rw [hwhole j hj]
      exact h.follows u j o hu ho

theorem inv_step (h : l.Inv address s) (ha : l.Trans s act s') : l.Inv address s' := by
  cases ha with
  | call hph => exact h.set rfl (fun _ => by rw [hph]; trivial) rfl rfl rfl rfl rfl rfl
  | rebind hph => exact h.set (p := .dialing) rfl (fun _ => by rw [hph]; trivial) rfl rfl rfl rfl rfl rfl
  | refused hph => exact h.set (p := .finished (err _)) rfl (fun hb => hb.elim) rfl rfl rfl rfl rfl rfl
  | deadline hph => exact h.set (p := .finished (err _)) rfl (fun hb => hb.elim) rfl rfl rfl rfl rfl rfl
  | cancel hph => exact h.set (p := .cancelled) rfl (fun hb => hb.elim) rfl rfl rfl rfl rfl rfl
  | @command t i x m r w hph hm =>
    have hstream : (s.phase t).stream = some i := by rw [hph]; rfl
    have hrest := h.follows t i _ hstream (by rw [hph]; rfl)
    refine h.move hstream ?_ ?_
    · rw [← hrest, ← eval_move hm]
      exact continues_afterCommand l i r w
    · rw [← hrest]
      exact (sent_of_eval hm).trans (sent_thenReply l.b64 _)
  | @reply t i localAddr x m r w hph hm =>
    have hstream : (s.phase t).stream = some i := by rw [hph]; rfl
    have hrest := h.follows t i _ hstream (by rw [hph]; rfl)
    refine h.move hstream ?_ ?_
    · rw [← hrest, ← eval_move hm]
      exact continues_afterReply l.b64 i localAddr r w
    · rw [← hrest]
      exact sent_of_eval hm
  | @take t i hph hh hp =>
    obtain ⟨rfl, hfree, hrest⟩ := h.kept i hp
    refine h.give (t := t) (i := 0) (by rw [hph]; trivial) hfree ?_ rfl rfl (le_refl _) h.first (fun _ _ => ⟨rfl, rfl⟩)
      (fun j hj => by cases hj) h.fresh h.sent
    have hc := continues_afterReply l.b64 0 l.localAddr (readReply l.b64).settle (s.wire 0)
    rw [eval_settle, hrest] at hc
    exact hc
  | @dialed t input ending room hph =>
    let w : Wire := ⟨input, ending, ⟨[], room⟩⟩
    have hself : Function.update s.born s.dialled w s.dialled = w := Function.update_self ..
    have hself' : Function.update s.wire s.dialled w s.dialled = w := Function.update_self ..
    have hold : ∀ j, j < s.dialled →
        Function.update s.born s.dialled w j = s.born j ∧ Function.update s.wire s.dialled w j = s.wire j := fun j hj =>
      ⟨Function.update_of_ne (Nat.ne_of_lt hj) .., Function.update_of_ne (Nat.ne_of_lt hj) ..⟩
    refine h.give (t := t) (i := s.dialled) (by rw [hph]; trivial)
      (fun u hu => Nat.lt_irrefl _ (h.below u s.dialled hu)) ?_ rfl rfl (Nat.le_succ _) (Nat.lt_succ_self _) hold
      (fun j hj => ⟨hj, fun hji => ?_⟩) (fun j hj => ?_) fun j hj => ?_
    · have hc := continues_afterCommand l s.dialled (exchange l.b64 BIND_COMMAND l.localAddr).settle w
      have hreq : l.requested address s.dialled = l.localAddr := if_neg (Nat.ne_of_gt h.first)
      rw [eval_settle, ← eval_acceptProgram, ← hreq] at hc
      show Continues l.b64 _ s.dialled (Function.update s.wire s.dialled w s.dialled)
        ((acceptProgram l.b64 (l.requested address s.dialled)).eval (Function.update s.born s.dialled w s.dialled))
      rw [hself, hself', ← hreq]
      exact hc
    · exact Nat.ne_of_gt h.first (hji ▸ (h.kept j hj).1)
    · show (Function.update s.born s.dialled w j).sink.sent = []
      rcases Nat.lt_succ_iff_lt_or_eq.1 hj with hj | rfl
      · rw [(hold j hj).1]
        exact h.fresh j hj
      · rw [hself]
    · show (Function.update s.wire s.dialled w j).sink.sent <+:
        ((acceptProgram l.b64 (l.requested address j)).eval (Function.update s.born s.dialled w j)).2.sink.sent
      rcases Nat.lt_succ_iff_lt_or_eq.1 hj with hj | rfl
      · rw [(hold j hj).1, (hold j hj).2]
        exact h.sent j hj
      · rw [hself']
        exact List.nil_prefix

end Steps

end RemoteTcpListener

end LzcSdk.RemoteSocks
