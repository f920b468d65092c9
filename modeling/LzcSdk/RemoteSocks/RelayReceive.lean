import LzcSdk.RemoteSocks.AssociationCalls

/-!
# Receiving from the relay

**The outcome of a receive depends on the first datagram of the relay alone** (`associated_receive_exact`). The loop
ignores the foreign datagrams before it, whatever they leave in the packet buffer, takes this one datagram, and
succeeds exactly on `00 00 00`, an address and a payload; and while the call waits, no other call takes a datagram from
it (`receipt_step`).
-/

namespace LzcSdk.RemoteSocks

open Outcome ByteIo Lts

/-! ## What a datagram says -/

section Outcomes

variable (b64 : Base64.Engine)

theorem datagramOf_ne_panicked (m : List UInt8) : datagramOf b64 m ≠ panicked := by
  unfold datagramOf
  split
  · split_ifs
    · simp
    · simp
    · intro h
      rcases bind_eq_panicked.1 h with h | ⟨_, -, h⟩
      · exact decodePrefix_ne_panicked b64 _ h
      · cases h
  · simp

/-- A datagram of the relay is accepted when it is the prefix, an address, and the payload. -/
theorem datagramOf_eq_ok {m d : List UInt8} {source : SocksAddress} : datagramOf b64 m = ok (source, d) ↔
    ∃ w, m = SOCKS_UDP_PREFIX ++ w ++ d ∧ SocksAddress.decodePrefix b64 (w ++ d) = ok (source, w.length) := by
  constructor
  · intro h
    unfold datagramOf at h
    split at h
    · rename_i x y fragment rest
      split_ifs at h with hxy hf
      simp only [ne_eq, not_or, not_not] at hxy hf
      obtain ⟨rfl, rfl⟩ := hxy
      subst hf
      obtain ⟨⟨source', consumed⟩, hd, hpair⟩ := bind_eq_ok.1 h
      cases hpair
      obtain ⟨w, t, rfl, rfl, -⟩ := decodePrefix_canonical b64 hd
      rw [List.drop_left' rfl]
      exact ⟨w, rfl, hd⟩
    · cases h
  · rintro ⟨w, rfl, hd⟩
    rw [List.append_assoc, datagramOf_framed, hd, ok_bind]
    simp only [List.drop_left' (rfl : w.length = w.length)]
    rfl

theorem into_ok (buffer : List UInt8) (source : SocksAddress) (payload : List UInt8) :
    Delivery.into buffer (ok (source, payload)) =
      ok ⟨(copyPayload buffer payload).1, source, (copyPayload buffer payload).2⟩ := rfl

theorem into_eq_ok {d : Delivery} {buffer : List UInt8} {r : Received} : d.into buffer = ok r ↔
    ∃ source payload, d = ok (source, payload) ∧
      r = ⟨(copyPayload buffer payload).1, source, (copyPayload buffer payload).2⟩ := by
  rw [Delivery.into, bind_eq_ok]
  constructor
  · rintro ⟨⟨source, payload⟩, hd, hr⟩
    cases hr
    exact ⟨source, payload, hd, rfl⟩
  · rintro ⟨source, payload, hd, rfl⟩
    exact ⟨(source, payload), hd, rfl⟩

theorem into_ne_panicked {d : Delivery} (h : d ≠ panicked) (buffer : List UInt8) : d.into buffer ≠ panicked := by
  intro hp
  rcases bind_eq_panicked.1 hp with hp | ⟨_, -, hp⟩
  · exact h hp
  · cases hp

/-- The errors of a datagram of the relay. -/
theorem datagramOf_errors (m : List UInt8) :
    (m.length < 3 ∨ m.take 2 ≠ [0, 0] → datagramOf b64 m = err .invalidSocksUdpHeader) ∧
    (∀ fragment rest, m = 0 :: 0 :: fragment :: rest → fragment ≠ 0 →
      datagramOf b64 m = err (.unsupportedSocksUdpFragment fragment)) ∧
    ∀ rest e, m = SOCKS_UDP_PREFIX ++ rest → SocksAddress.decodePrefix b64 rest = err e → datagramOf b64 m = err e := by
  refine ⟨fun h => ?_, ?_, ?_⟩
  · match m with
    | [] => rfl
    | [_] => rfl
    | [_, _] => rfl
    | x :: y :: fragment :: rest =>
      rcases h with h | h
      · simp only [List.length_cons] at h
        omega
      · have hxy : x ≠ 0 ∨ y ≠ 0 := by
          by_contra hn
          simp only [ne_eq, not_or, not_not] at hn
          exact h (by rw [hn.1, hn.2]; rfl)
        rw [datagramOf, if_pos hxy]
  · rintro fragment rest rfl hf
    rw [datagramOf, if_neg (by simp), if_pos hf]
  · rintro rest e rfl hd
    rw [datagramOf_framed, hd, err_bind]

end Outcomes

namespace Association

/-! ## While other calls go on -/

/-- The steps that neither drop nor fail the call, and keep the control stream open. -/
def undisturbed (t : Nat) (_ : State) : Action → Prop
  | .cancel u => u ≠ t
  | .socketError u _ => u ≠ t
  | .controlEnd => False
  | _ => True

variable {a : Association} {s s' : State} {act : Action} {t : Nat} {payload m : List UInt8}
  {foreign rest : List (SocketAddr × List UInt8)}

/-- What became of a receive that waited with `foreign`, a datagram `m` of the relay and `rest` in the socket: it has
ignored some of the foreign ones, or it has returned what `m` says. -/
inductive Receipt (a : Association) (t : Nat) (payload m : List UInt8) (foreign rest : List (SocketAddr × List UInt8))
    (s : State) : Prop where
  | waiting (packet : List UInt8) (ignored left more : List (SocketAddr × List UInt8))
    (hph : s.phase t = .selecting (.recvFrom payload) payload packet) (hforeign : foreign = ignored ++ left)
    (harr : s.arrived = left ++ (a.relay, m) :: (rest ++ more))
  | returned (taken more : List (SocketAddr × List UInt8))
    (hph : s.phase t = .finished (.recv (.recvFrom payload))
      ((datagramOf a.b64 (m.take MAX_UDP_PAYLOAD)).into payload >>= fun r => ok (.received r)))
    (harr : rest ++ more = taken ++ s.arrived)

theorem afterPacket_recvFrom (o : Outcome Error Received) : a.afterPacket (.recvFrom payload) o =
    .finished (.recv (.recvFrom payload)) (o >>= fun r => ok (.received r)) := by
  cases o <;> rfl

/-- The head of a socket with foreign datagrams before one of the relay is this one, or a foreign one. -/
theorem head_arrived {d : SocketAddr × List UInt8} {arrived left more : List (SocketAddr × List UInt8)}
    (hforeign : ∀ d ∈ left, d.1 ≠ a.relay) (h : left ++ (a.relay, m) :: more = d :: arrived) :
    (d = (a.relay, m) ∧ arrived = more) ∨
      d.1 ≠ a.relay ∧ ∃ left', left = d :: left' ∧ arrived = left' ++ (a.relay, m) :: more := by
  cases left with
  | nil =>
    obtain ⟨hd, harrived⟩ := List.cons.inj h
    exact .inl ⟨hd.symm, harrived.symm⟩
  | cons d' left =>
    obtain ⟨rfl, harrived⟩ := List.cons.inj h
    exact .inr ⟨hforeign _ List.mem_cons_self, left, rfl, harrived.symm⟩

/-- A waiting receive takes the head of the socket: a foreign one it ignores, the one of the relay it returns. -/
theorem receipt_own {packet : List UInt8} {ignored left more : List (SocketAddr × List UInt8)} (hi : a.Inv s)
    (hc : a.Calls s) (hlive : s.control = .live) (hforeign : ∀ d ∈ left, d.1 ≠ a.relay)
    (hph : s.phase t = .selecting (.recvFrom payload) payload packet) (hf : foreign = ignored ++ left)
    (harr : s.arrived = left ++ (a.relay, m) :: (rest ++ more)) (ha : a.Trans s act s') (hg : undisturbed t s act)
    (ht : act.task = some t) : Receipt a t payload m foreign rest s' := by
  have hwatch : s.watch = ⟨false, false, true⟩ := hi.flag (by rw [hlive]; simp)
  cases ha with
  | call h | enter h | refuse h | closed h | flag h | select h | transmit h | leaveQueue h | abandonSend h =>
    cases ht
    rw [h] at hph
    cases hph
  | arrive | controlData | controlEnd | report => cases ht
  | socketError h | abandon h =>
    cases ht
    exact absurd rfl hg
  | foreignClosed h hcons hne hv =>
    rw [hwatch] at hv
    cases hv
  | changed h hchanged =>
    rw [hwatch] at hchanged
    simp at hchanged
  | @relayed t₀ c payload' packet' bytes arrived h hcons =>
    cases ht
    rw [h] at hph
    cases hph
    rcases head_arrived hforeign (harr.symm.trans hcons) with ⟨hd, harrived⟩ | ⟨hne, -⟩
    · cases hd
      refine .returned [] more ?_ harrived.symm
      have hlen := (hc.selecting t _ _ _ h).2
      rw [← parsePacket_fillPacket a.b64 payload m hlen, ← afterPacket_recvFrom]
      exact Function.update_self ..
    · exact absurd rfl hne
  | @foreign t₀ c payload' packet' bytes source arrived h hcons hne hv =>
    cases ht
    rw [h] at hph
    cases hph
    rcases head_arrived hforeign (harr.symm.trans hcons) with ⟨hd, -⟩ | ⟨-, left', hleft, harrived⟩
    · cases hd
      exact absurd rfl hne
    · refine .waiting (fillPacket packet bytes).1 (ignored ++ [(source, bytes)]) left' more ?_ ?_ harrived
      · exact Function.update_self ..
      · rw [hf, hleft, List.append_assoc]
        rfl

/-- No other call takes a datagram from a waiting receive. -/
theorem receipt_step (hi : a.Inv s) (hc : a.Calls s) (hlive : s.control = .live)
    (hforeign : ∀ d ∈ foreign, d.1 ≠ a.relay) (h : Receipt a t payload m foreign rest s) (ha : a.Trans s act s')
    (hg : undisturbed t s act) : Receipt a t payload m foreign rest s' := by
  cases h with
  | returned taken more hph harr =>
    rcases arrived_of_trans ha with ⟨new, hnew⟩ | ⟨u, d, -, -, hd⟩
    · refine .returned taken (more ++ new) (phase_of_finished ha hph) ?_
      rw [hnew, ← List.append_assoc, harr, List.append_assoc]
    · refine .returned (taken ++ [d]) more (phase_of_finished ha hph) ?_
      rw [harr, hd, List.append_assoc]
      rfl
  | waiting packet ignored left more hph hf harr =>
    by_cases ht : act.task = some t
    · have hleft : ∀ d ∈ left, d.1 ≠ a.relay := fun d hd => hforeign d (hf ▸ List.mem_append_right _ hd)
      exact receipt_own hi hc hlive hleft hph hf harr ha hg ht
    · have hph' : s'.phase t = .selecting (.recvFrom payload) payload packet := (phase_of_ne ha ht).trans hph
      rcases arrived_of_trans ha with ⟨new, hnew⟩ | ⟨u, d, rfl, hsel, -⟩
      · refine .waiting packet ignored left (more ++ new) hph' hf ?_
        rw [hnew, harr]
        simp only [List.append_assoc, List.cons_append]
      · -- only the holder of the mutex takes datagrams
        have hut : u = t := hi.serves.unique (by rw [hph]; trivial) hsel
        exact absurd (congrArg some hut) ht

theorem control_of_undisturbed (hlive : s.control = .live) (ha : a.Trans s act s') (hg : undisturbed t s act) :
    s'.control = .live := by
  cases ha with
  | controlEnd => exact hg.elim
  | report hc =>
    rw [hlive] at hc
    cases hc
  | call | enter | refuse | closed | flag | select | relayed | foreignClosed | foreign | changed | socketError
  | transmit | leaveQueue | abandon | abandonSend | arrive | controlData => exact hlive

/-- The same over a run. -/
theorem receipt_of_reachable {packet : List UInt8} (hs : Reachable a.step anyStep init s) (hlive : s.control = .live)
    (hforeign : ∀ d ∈ foreign, d.1 ≠ a.relay) (hph : s.phase t = .selecting (.recvFrom payload) payload packet)
    (harr : s.arrived = foreign ++ (a.relay, m) :: rest) (h : Reachable a.step (undisturbed t) s s') :
    Receipt a t payload m foreign rest s' := by
  have hstart : Receipt a t payload m foreign rest s :=
    .waiting packet [] foreign [] hph rfl (by rw [harr, List.append_nil])
  have hall : a.Inv s' ∧ a.Calls s' ∧ s'.control = .live ∧ Receipt a t payload m foreign rest s' := by
    refine h.invariant (I := fun r => a.Inv r ∧ a.Calls r ∧ r.control = .live ∧ Receipt a t payload m foreign rest r)
      ⟨inv_of_reachable hs, calls_of_reachable hs, hlive, hstart⟩ ?_
    rintro r act r' ⟨hi, hc, hl, hr⟩ hg ha
    have ht := trans_of_step ha
    exact ⟨inv_step hi ht, calls_step hi hc ht, control_of_undisturbed hl ht hg,
      receipt_step hi hc hl hforeign hr ht hg⟩
  exact hall.2.2.2

/-- **A receive depends on the first datagram of the relay alone.** With the control stream open: a receive waits as
long as only foreign datagrams come, and takes everything up to and including the first datagram `m` of the relay,
whatever is in the packet buffer; it succeeds exactly when `m` is `00 00 00`, an address and a payload, and has the
stated error otherwise; and in every run in which the call is neither dropped nor fails, other calls change nothing of
this. -/
theorem associated_receive_exact (a : Association) (payload : List UInt8)
    {foreign : List (SocketAddr × List UInt8)} (hforeign : ∀ d ∈ foreign, d.1 ≠ a.relay) {m : List UInt8}
    (hm : m.length ≤ MAX_UDP_PAYLOAD) :
    let outcome := (datagramOf a.b64 m).into payload
    a.recvAssociated payload (datagrams foreign) = none ∧
    (∀ rest, a.recvAssociated payload (datagrams foreign ++ .datagram a.relay m :: rest) = some (outcome, rest)) ∧
    (∀ packet rest, packet.length = MAX_UDP_PAYLOAD →
      a.recvLoop payload packet (datagrams foreign ++ .datagram a.relay m :: rest) = some (outcome, rest)) ∧
    (∀ r, outcome = ok r ↔ ∃ w d source, m = [0, 0, 0] ++ w ++ d ∧
      SocksAddress.decodePrefix a.b64 (w ++ d) = ok (source, w.length) ∧
      r = ⟨min payload.length d.length, source,
        d.take (min payload.length d.length) ++ payload.drop (min payload.length d.length)⟩) ∧
    (m.length < 3 ∨ m.take 2 ≠ [0, 0] → outcome = err .invalidSocksUdpHeader) ∧
    (∀ fragment rest, m = 0 :: 0 :: fragment :: rest → fragment ≠ 0 →
      outcome = err (.unsupportedSocksUdpFragment fragment)) ∧
    (∀ rest e, m = [0, 0, 0] ++ rest → SocksAddress.decodePrefix a.b64 rest = err e → outcome = err e) ∧
    outcome ≠ panicked ∧
    ∀ s s' t packet rest, Reachable a.step anyStep init s → s.control = .live →
      s.phase t = .selecting (.recvFrom payload) payload packet → s.arrived = foreign ++ (a.relay, m) :: rest →
      Reachable a.step (undisturbed t) s s' → Receipt a t payload m foreign rest s' := by
  intro outcome
  obtain ⟨hheader, hfragment, haddress⟩ := datagramOf_errors a.b64 m
  have hnext : ∀ rest, a.nextDelivery (datagrams foreign ++ .datagram a.relay m :: rest) =
      some (datagramOf a.b64 m, rest) := by
    intro rest
    rw [nextDelivery_foreign a hforeign, nextDelivery, if_pos rfl, List.take_of_length_le hm]
  refine ⟨?_, fun rest => ?_, fun packet rest hp => ?_, fun r => ?_, fun h => ?_, fun fragment rest h hf => ?_,
    fun rest e h hd => ?_, into_ne_panicked (datagramOf_ne_panicked a.b64 m) payload, ?_⟩
  · rw [recvAssociated_eq, ← List.append_nil (datagrams foreign), nextDelivery_foreign a hforeign]
    rfl
  · rw [recvAssociated_eq, hnext]
    rfl
  · rw [recvLoop_eq a payload _ hp, hnext]
    rfl
  · rw [into_eq_ok]
    constructor
    · rintro ⟨source, d, hd, rfl⟩
      obtain ⟨w, hmw, hw⟩ := (datagramOf_eq_ok a.b64).1 hd
      exact ⟨w, d, source, hmw, hw, rfl⟩
    · rintro ⟨w, d, source, hmw, hw, rfl⟩
      exact ⟨source, d, (datagramOf_eq_ok a.b64).2 ⟨w, hmw, hw⟩, rfl⟩
  · exact congrArg (Delivery.into payload) (hheader h)
  · exact congrArg (Delivery.into payload) (hfragment fragment rest h hf)
  · exact congrArg (Delivery.into payload) (haddress rest e h hd)
  · intro s s' t packet rest hs hlive hph harr h
    exact receipt_of_reachable hs hlive hforeign hph harr h

/-- A foreign datagram with a complete header comes first; it does not complete the short datagram of the relay. -/
theorem associated_receive_exact_short :
    let a : Association := ⟨Base64.standardNoPad, .v4 (Ipv4Addr.new 10 0 0 1) 1080, none⟩
    let foreign := [(.v4 (Ipv4Addr.new 8 8 8 8) 53, [0, 0, 0, 1, 8, 8, 8, 8, 0, 53, 0x6f, 0x6b])]
    a.recvAssociated [1, 2, 3] (datagrams foreign ++ [.datagram a.relay [0, 0]]) =
      some (err .invalidSocksUdpHeader, []) := by
  intro a foreign
  have hforeign : ∀ d ∈ foreign, d.1 ≠ a.relay := by decide
  have h := associated_receive_exact a [1, 2, 3] hforeign (m := [0, 0]) (by decide)
  exact h.2.1 []

end Association

end LzcSdk.RemoteSocks
