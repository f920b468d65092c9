import LzcSdk.RemoteSocks.Listener

/-!
# The two replies of an accept

An accept that returned has both replies from the connection it hands out, and has read nothing behind the second one
(`acceptProgram_eq_ok`); a connection whose accept failed is never used again (`retired_of_reachable`).

**Every accept has a connection of its own** (`listener_pairs_replies`), whatever other accepts, the proxy and the
network do.
-/

namespace LzcSdk.RemoteSocks.RemoteTcpListener

open Outcome ByteIo Lts

/-! ## On one connection -/

section Connection

variable (b64 : Base64.Engine) {address localAddr peerAddr : SocksAddress} {request input : List UInt8} {e : Ending}
  {room : Option Nat} {w : Wire}

/-- An accept that returned has read the two replies, and sent its request. -/
theorem acceptProgram_eq_ok
    (h : (acceptProgram b64 address).eval ⟨input, e, ⟨[], room⟩⟩ = (ok (localAddr, peerAddr), w)) :
    ∃ first second request, SocksAddress.encode b64 address = ok request ∧
      input = [0x05, 0x00] ++ [0x05, 0x00, 0x00] ++ first ++ ([0x05, 0x00, 0x00] ++ second ++ w.input) ∧
      SocksAddress.decode b64 first = ok localAddr ∧ SocksAddress.decode b64 second = ok peerAddr ∧
      w.sink.sent = [0x05, 0x01, 0x00] ++ [0x05, 0x02, 0x00] ++ request := by
  -- it has written everything, so the connection may as well be one that never fails
  obtain ⟨localAddr', w₁, hfirst, hrest⟩ := Prog.eval_bind_eq_ok (Prog.eval_unlimited _ h)
  obtain ⟨peerAddr', w₂, hsecond, hpair⟩ := Prog.eval_bind_eq_ok hrest
  cases hpair
  obtain ⟨request, hrequest⟩ := encode_of_exchange b64 hfirst
  obtain ⟨first, tail, rfl, hdecode⟩ := eval_exchange_eq_ok b64 hrequest hfirst
  rw [eval_exchange_ok b64 hrequest hdecode] at hfirst
  cases hfirst
  obtain ⟨second, rest, rfl, hdecode', hw⟩ := eval_readReply_eq_ok b64 hsecond
  obtain ⟨hin, -, hsink⟩ := Wire.mk.inj hw
  subst hin
  exact ⟨first, second, request, hrequest, rfl, hdecode, hdecode', (Sink.mk.inj hsink).1⟩

/-- The address of a reply has an encoding, for it was decoded. -/
theorem encode_bound {command : UInt8} {bound : SocksAddress} {w' : Wire} (hnew : w.sink.sent = [])
    (h : (exchange b64 command address).eval w = (ok bound, w')) :
    ∃ field, SocksAddress.encode b64 bound = ok field := by
  obtain ⟨input, e, sent, room⟩ := w
  cases hnew
  obtain ⟨request, hrequest⟩ := encode_of_exchange b64 h
  obtain ⟨field, -, -, hdecode⟩ := eval_exchange_eq_ok b64 hrequest (Prog.eval_unlimited _ h)
  exact ⟨field, encode_of_decode b64 hdecode⟩

/-- Whatever becomes of it, it has sent a part of the offer and the request. -/
theorem sent_acceptProgram_eq (h : SocksAddress.encode b64 address = ok request) (hsent : w.sink.sent = []) :
    ((acceptProgram b64 address).eval w).2.sink.sent <+: [0x05, 0x01, 0x00] ++ [0x05, 0x02, 0x00] ++ request := by
  obtain ⟨input, e, sent, room⟩ := w
  cases hsent
  have hexchange : ((exchange b64 BIND_COMMAND address).eval ⟨input, e, ⟨[], room⟩⟩).2.sink.sent <+:
      [0x05, 0x01, 0x00] ++ [0x05, 0x02, 0x00] ++ request := sent_exchange_prefix b64 h input room
  rw [eval_acceptProgram]
  revert hexchange
  rcases (exchange b64 BIND_COMMAND address).eval ⟨input, e, ⟨[], room⟩⟩ with ⟨_ | _ | _, ⟨input', e', k'⟩⟩
  · intro hexchange
    show ((readReply b64).eval _).2.sink.sent <+: _
    rw [eval_readReply_sink]
    exact hexchange
  · exact id
  · exact id

end Connection

/-! ## Over a run -/

section Run

variable {l : RemoteTcpListener} {address : SocksAddress} {s s' : State} {act : Action} {t i : Nat}

theorem inv_init {b64 : Base64.Engine} {elapsed : Bool} {dialled stream : Socket}
    (h : bindTcp b64 elapsed (ok dialled) address = ok (l, stream)) (hnew : dialled.sink.sent = []) :
    l.b64 = b64 ∧ (exchange b64 BIND_COMMAND address).eval dialled.flat = (ok l.localAddr, stream.flat) ∧
      l.Inv address (init dialled stream) := by
  obtain ⟨⟨localAddr, stream'⟩, hperform, hpair⟩ := bind_eq_ok.1 h
  cases hpair
  have heval : (exchange b64 BIND_COMMAND address).eval dialled.flat = (ok localAddr, stream.flat) := by
    cases elapsed with
    | true => cases hperform
    | false =>
      rw [performCommand_dialled, bind_ok_eq_ok] at hperform
      obtain ⟨localAddr', hfst, hpair⟩ := hperform
      cases hpair
      exact Prod.ext (by rw [← hfst, Prog.run_fst]) (Prog.run_snd _ _).symm
  have hwhole : whole ⟨b64, localAddr⟩ address (init dialled stream) 0 =
      withLocal localAddr ((readReply b64).eval stream.flat) := by
    show (acceptProgram b64 address).eval dialled.flat = _
    rw [eval_acceptProgram, heval]
    rfl
  refine ⟨rfl, heval, List.nodup_nil, List.nodup_nil, fun t i hi => ?_, fun t i hi => ?_, Nat.zero_lt_one,
    fun i hi => ?_, fun t i hi => ?_, fun t i o hi => ?_, fun _ _ => hnew, fun i hi => ?_⟩
  · cases hi
  · cases hi
  · cases hi
    exact ⟨rfl, (fun t ht => by cases ht), hwhole.symm⟩
  · cases hi
  · cases hi
  · obtain rfl : i = 0 := Nat.lt_one_iff.1 hi
    rw [hwhole]
    exact Prog.sent_prefix_eval (readReply b64) stream.flat

theorem inv_of_reachable {guard : State → Action → Prop} (h : l.Inv address s) (hr : Reachable l.step guard s s') :
    l.Inv address s' :=
  hr.invariant h fun _ _ _ hi _ ha => inv_step hi (trans_of_step ha)

/-- Connections are added, and given to accepts, but never taken back or replaced. -/
structure Grows (s s' : State) : Prop where
  dialled : s.dialled ≤ s'.dialled
  born : ∀ i, i < s.dialled → s'.born i = s.born i
  taken : s.taken <+: s'.taken

theorem grows_of_trans (h : l.Trans s act s') : Grows s s' := by
  cases h with
  | dialed =>
    exact ⟨Nat.le_succ _, fun i hi => Function.update_of_ne (Nat.ne_of_lt hi) .., List.prefix_append _ _⟩
  | take => exact ⟨le_refl _, fun _ _ => rfl, List.prefix_append _ _⟩
  | call | rebind | refused | command | reply | deadline | cancel => exact ⟨le_refl _, fun _ _ => rfl, List.prefix_rfl⟩

theorem grows_of_reachable {guard : State → Action → Prop} (hr : Reachable l.step guard s s') : Grows s s' := by
  refine hr.invariant (I := Grows s) ⟨le_refl _, fun _ _ => rfl, List.prefix_rfl⟩ fun r act r' hg _ ha => ?_
  have hstep := grows_of_trans (trans_of_step ha)
  exact ⟨hg.dialled.trans hstep.dialled,
    fun i hi => (hstep.born i (Nat.lt_of_lt_of_le hi hg.dialled)).trans (hg.born i hi), hg.taken.trans hstep.taken⟩

/-- An accept that has given its connection up waits for nothing. -/
theorem retired {p : Phase} (hb : ¬ p.isBefore) (hs : p.stream = none) :
    p.isAwaiting = false ∧ p.isPerforming = false := by
  cases p with
  | idle | queued | dialing => exact absurd trivial hb
  | commanding i x | replying i localAddr x => exact absurd hs (Option.some_ne_none i)
  | finished o => exact ⟨rfl, rfl⟩
  | cancelled => exact ⟨rfl, rfl⟩

/-- It does nothing any more. -/
theorem phase_of_retired (h : l.Trans s act s') (hb : ¬ (s.phase t).isBefore) (hs : (s.phase t).stream = none) :
    s'.phase t = s.phase t := by
  -- the accept that moves is another one
  have other : ∀ {u : Nat} {p : Phase}, u ≠ t → Function.update s.phase u p t = s.phase t := fun hne =>
    Function.update_of_ne hne.symm ..
  have before : ∀ {u : Nat}, (s.phase u).isBefore → u ≠ t := by
    rintro u hu rfl
    exact hb hu
  have having : ∀ {u i : Nat}, (s.phase u).stream = some i → u ≠ t := by
    rintro u i hu rfl
    rw [hs] at hu
    cases hu
  cases h with
  | call hph | take hph | rebind hph | dialed hph | refused hph => exact other (before (by rw [hph]; trivial))
  | command hph | reply hph => exact other (having (by rw [hph]; rfl))
  | deadline hph =>
    refine other ?_
    rintro rfl
    rw [(retired hb hs).2] at hph
    cases hph
  | cancel hph =>
    refine other ?_
    rintro rfl
    rw [(retired hb hs).1] at hph
    cases hph

/-- A connection whose accept has failed or was dropped is never used again. -/
theorem retired_of_reachable {guard : State → Action → Prop} (h : l.Inv address s) (hi : (t, i) ∈ s.taken)
    (hs : (s.phase t).stream ≠ some i) (hr : Reachable l.step guard s s') (u : Nat) : (s'.phase u).stream ≠ some i := by
  have hnone : (s.phase t).stream = none := by
    cases hj : (s.phase t).stream with
    | none => rfl
    | some j => exact absurd (hj.trans (congrArg some (h.accept_unique hi (h.owned t j hj)))) hs
  have hph : s'.phase t = s.phase t := by
    refine hr.invariant (I := fun r => r.phase t = s.phase t) rfl fun r act r' hsame _ ha => ?_
    rw [← hsame]
    exact phase_of_retired (trans_of_step ha) (by rw [hsame]; exact h.started t i hi) (by rw [hsame]; exact hnone)
  intro hu
  have h' := inv_of_reachable h hr
  have hut : u = t := h'.stream_unique ((grows_of_reachable hr).taken.subset hi) (h'.owned u i hu)
  subst hut
  rw [hph] at hu
  exact hs hu

end Run

/-- **Every accept has a connection of its own, and both replies come from it.** For a listener of `bind_tcp`: its
address is encoded; no connection is given to two accepts, and no accept gets two; a stream that an accept returned is
on the connection of this accept, with the addresses of the first and the second reply on it and exactly the bytes
behind the second reply unread; an accept with a connection that is not the kept one sends there the request to bind
the address of the listener, and nothing else; a connection whose accept failed or was dropped is never used again. -/
theorem listener_pairs_replies (b64 : Base64.Engine) (elapsed : Bool) (segments : List (List UInt8)) (ending : Ending)
    (room : Option Nat) (address : SocksAddress) (l : RemoteTcpListener) (stream : Socket)
    (h : bindTcp b64 elapsed (ok ⟨segments, ending, ⟨[], room⟩⟩) address = ok (l, stream)) :
    let dialled : Socket := ⟨segments, ending, ⟨[], room⟩⟩
    ∃ request, SocksAddress.encode b64 l.localAddr = ok request ∧
      ∀ s, Reachable l.step anyStep (init dialled stream) s →
        s.born 0 = dialled.flat ∧
        (∀ t u i, (t, i) ∈ s.taken → (u, i) ∈ s.taken → u = t) ∧
        (∀ t i j, (t, i) ∈ s.taken → (t, j) ∈ s.taken → j = i) ∧
        (∀ t i, (s.phase t).stream = some i → (t, i) ∈ s.taken) ∧
        (∀ t x, s.phase t = .finished (ok x) → (t, x.inner) ∈ s.taken ∧ ∃ first second request,
          SocksAddress.encode b64 (if x.inner = 0 then address else l.localAddr) = ok request ∧
          (s.born x.inner).input =
            [0x05, 0x00] ++ [0x05, 0x00, 0x00] ++ first ++ ([0x05, 0x00, 0x00] ++ second ++ (s.wire x.inner).input) ∧
          SocksAddress.decode b64 first = ok x.localAddr ∧ SocksAddress.decode b64 second = ok x.peerAddr ∧
          (s.wire x.inner).sink.sent = [0x05, 0x01, 0x00] ++ [0x05, 0x02, 0x00] ++ request) ∧
        (∀ t i, (t, i) ∈ s.taken → i ≠ 0 →
          (s.wire i).sink.sent <+: [0x05, 0x01, 0x00] ++ [0x05, 0x02, 0x00] ++ request) ∧
        ∀ s', Reachable l.step anyStep s s' → s.taken <+: s'.taken ∧
          (∀ t i, (t, i) ∈ s.taken → s'.born i = s.born i) ∧
          ∀ t i, (t, i) ∈ s.taken → (s.phase t).stream ≠ some i → ∀ u, (s'.phase u).stream ≠ some i := by
  intro dialled
  obtain ⟨rfl, hexchange, hinit⟩ := inv_init h rfl
  obtain ⟨field, hrequest⟩ := encode_bound l.b64 rfl hexchange
  refine ⟨field, hrequest, fun s hr => ?_⟩
  have hi := inv_of_reachable hinit hr
  refine ⟨(grows_of_reachable hr).born 0 Nat.zero_lt_one, fun t u i => hi.stream_unique, fun t i j => hi.accept_unique,
    hi.owned, fun t x hph => ?_, fun t i hmem hne => ?_, fun s' hr' => ⟨(grows_of_reachable hr').taken,
      fun t i hmem => (grows_of_reachable hr').born i (hi.below t i hmem),
      fun t i hmem hs => retired_of_reachable hi hmem hs hr'⟩⟩
  · have hmem := hi.owned t x.inner (by rw [hph]; rfl)
    have hrest := hi.follows t x.inner _ (by rw [hph]; rfl) (by rw [hph]; rfl)
    have hfresh := hi.fresh x.inner (hi.below t x.inner hmem)
    refine ⟨hmem, ?_⟩
    rw [whole] at hrest
    generalize s.born x.inner = born at hrest hfresh ⊢
    obtain ⟨input, e, sent, room⟩ := born
    cases hfresh
    exact acceptProgram_eq_ok l.b64 hrest.symm
  · have hlt := hi.below t i hmem
    have hsent := hi.sent i hlt
    have hreq : l.requested address i = l.localAddr := if_neg hne
    rw [whole, hreq] at hsent
    exact hsent.trans (sent_acceptProgram_eq l.b64 hrequest (hi.fresh i hlt))

/-- A proxy that binds `127.0.0.1:55000`, accepts a peer, and sends five bytes. -/
def bindingProxy : Socket :=
  ⟨[[0x05, 0x00], [0x05, 0x00, 0x00, 0x01, 127, 0, 0, 1, 0xd6, 0xd8],
    [0x05, 0x00, 0x00, 0x01, 192, 0, 2, 10, 0x0d, 0x05], [0x62, 0x6f, 0x75, 0x6e, 0x64]], .eof, ⟨[], none⟩⟩

/-- The accept of this proxy has both replies from its connection, and only the five bytes are left on it. -/
theorem listener_pairs_replies_bound :
    ∃ l stream s x, bindTcp Base64.standardNoPad false (ok bindingProxy) (.Ip (.v4 (Ipv4Addr.new 0 0 0 0) 0)) =
        ok (l, stream) ∧
      run l.step (init bindingProxy stream)
        [.call 0, .grant 0, .move 0 (.read 3), .move 0 (.read 1), .move 0 (.read 6)] = some s ∧
      s.phase 0 = .finished (ok x) ∧ x.localAddr = .Ip (.v4 (Ipv4Addr.new 127 0 0 1) 55000) ∧
      x.peerAddr = .Ip (.v4 (Ipv4Addr.new 192 0 2 10) 3333) ∧ (s.wire x.inner).input = [0x62, 0x6f, 0x75, 0x6e, 0x64] ∧
      (0, x.inner) ∈ s.taken ∧ ∀ u, (u, x.inner) ∈ s.taken → u = 0 := by
  obtain ⟨l, stream, s, x, hbind, hrun, hph, hlocal, hpeer, hin⟩ : ∃ l stream s x,
      bindTcp Base64.standardNoPad false (ok bindingProxy) (.Ip (.v4 (Ipv4Addr.new 0 0 0 0) 0)) = ok (l, stream) ∧
      run l.step (init bindingProxy stream)
        [.call 0, .grant 0, .move 0 (.read 3), .move 0 (.read 1), .move 0 (.read 6)] = some s ∧
      s.phase 0 = .finished (ok x) ∧ x.localAddr = .Ip (.v4 (Ipv4Addr.new 127 0 0 1) 55000) ∧
      x.peerAddr = .Ip (.v4 (Ipv4Addr.new 192 0 2 10) 3333) ∧
      (s.wire x.inner).input = [0x62, 0x6f, 0x75, 0x6e, 0x64] := ⟨_, _, _, _, rfl, rfl, rfl, rfl, rfl, rfl⟩
  obtain ⟨request, -, hall⟩ := listener_pairs_replies Base64.standardNoPad false bindingProxy.segments .eof none _ l
    stream hbind
  obtain ⟨-, honce, -, howned, -⟩ := hall s (.of_run (fun _ _ _ => trivial) hrun)
  have hmem := howned 0 x.inner (by rw [hph]; rfl)
  exact ⟨l, stream, s, x, hbind, hrun, hph, hlocal, hpeer, hin, hmem, fun u hu => honce 0 u x.inner hmem hu⟩

end LzcSdk.RemoteSocks.RemoteTcpListener
