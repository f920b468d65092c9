import LzcSdk.Lib.History
import LzcSdk.RemoteSocks.RelaySend

/-!
# The datagrams of an association

The datagrams that the calls on an association take off its UDP socket and hand to it, over whole runs of any calls in
any interleaving, with calls dropped wherever they wait. What a call did fits where it is (`Story`, `story_of_run`).

**Every datagram of the relay is received once** (`relay_datagrams_once`). The calls take the datagrams in the order in
which they arrived, each once. A receive returns the last datagram of the relay that it took, and before it `recv` took
only what it skips; a receive that was dropped, or that failed otherwise, took only what it skips, and `recv_from` skips
nothing. **Every send hands over one datagram at most** (`sends_hand_over_once`), its frame when it returns `Ok`, and
the socket gets nothing else.
-/

namespace LzcSdk.RemoteSocks.Association

open Outcome ByteIo Lts History

/-! ## What the calls do -/

/-- A call took a datagram off the UDP socket, or handed one to it. -/
inductive Event where
  | took (source : SocketAddr) (bytes : List UInt8)
  | gave (datagram : List UInt8)
  deriving DecidableEq, Repr

/-- The datagram that a call took. -/
def Event.taken : Event → Option (SocketAddr × List UInt8)
  | took source bytes => some (source, bytes)
  | gave _ => none

/-- The datagram that a call handed over. -/
def Event.given : Event → Option (List UInt8)
  | took _ _ => none
  | gave datagram => some datagram

/-- What an action does to the datagrams. -/
def State.events (s : State) : Action → List (Nat × Event)
  | .datagram t => note t ((s.arrived.head?.map fun d => Event.took d.1 d.2).toList)
  | .transmit t written =>
    match s.phase t with
    | .sending _ _ frame => note t ((transmitted frame written).map Event.gave)
    | _ => []
  | _ => []

/-- The datagram that an action brings. -/
def Action.arrival : Action → Option (SocketAddr × List UInt8)
  | .arrive source bytes => some (source, bytes)
  | _ => none

variable (a : Association)

/-- What the calls of a run did to the datagrams. -/
def traffic (as : List Action) : List (Nat × Event) := trace a.step State.events init as

/-- A datagram of the relay that a receive takes and does not return. -/
def Skips : RecvCall → List UInt8 → Prop
  | .recvFrom _, _ => False
  | .recv _, m => ∃ source payload, datagramOf a.b64 (m.take MAX_UDP_PAYLOAD) = ok (source, payload) ∧
      some source ≠ a.peerAddr

/-- What a call did until it ends: a receive took datagrams that it does not return. -/
def Searches : Call → List Event → Prop
  | .send _, es => es = []
  | .recv c, es => ∀ e ∈ es, ∃ source bytes, e = .took source bytes ∧ (source = a.relay → a.Skips c bytes)

/-- What a call did, in each of its phases. -/
inductive Story : Phase → List Event → Prop where
  | idle : Story .idle []
  | entering {c : Call} {es : List Event} (h : a.Searches c es) : Story (.entering c) es
  | queued {c : Call} {w : Work} {es : List Event} (h : a.Searches c es) : Story (.queued c w) es
  | selecting {c : RecvCall} {payload packet : List UInt8} {es : List Event} (h : a.Searches (.recv c) es) :
    Story (.selecting c payload packet) es
  | sending {c : SendCall} {payload frame : List UInt8} : Story (.sending c payload frame) []
  | cancelled {c : Call} {es : List Event} (h : a.Searches c es) : Story (.cancelled c) es
  | failed {c : Call} {es : List Event} {o : Outcome Error Answer} (h : a.Searches c es)
    (ho : ∀ answer, o ≠ ok answer) : Story (.finished c o) es
  | sent {c : SendCall} {payload frame : List UInt8} {target : SocksAddress} {written : Except IoError Nat}
    (hprep : a.prepare (.send c) = ok (.send payload target))
    (hframe : associatedFrame a.b64 payload target = ok frame) :
    Story (.finished (.send c) (sendResult payload frame written >>= fun n => ok (.sent n)))
      ((transmitted frame written).map .gave)
  | received {c : RecvCall} {es : List Event} {bytes : List UInt8} {r : Outcome Error Received}
    (h : a.Searches (.recv c) es) (hr : r = (datagramOf a.b64 (bytes.take MAX_UDP_PAYLOAD)).into c.buffer)
    (hskip : ¬ a.Skips c bytes) :
    Story (.finished (.recv c) (r >>= fun r => ok (.received r))) (es ++ [.took a.relay bytes])

variable {a}

/-! ## The datagrams of a run -/

section Run

variable {s s' : State} {as : List Action} {act : Action}

/-- A step takes the datagram that arrived first, or none. -/
theorem arrived_of_step (ha : a.step s act = some s') :
    s.arrived ++ act.arrival.toList = (s.events act).filterMap (fun x => x.2.taken) ++ s'.arrived := by
  cases trans_of_step ha with
  | relayed hph harr | foreignClosed hph harr | foreign hph harr =>
    simp [State.events, Action.arrival, State.leave, State.set, harr, note, Event.taken]
  | transmit hph => simp [State.events, Action.arrival, State.set, hph, note, Event.taken, Function.comp_def]
  | arrive => rfl
  | call | enter | refuse | closed | flag | select | changed | socketError | leaveQueue | abandon | abandonSend
  | controlData | controlEnd | report => exact List.append_nil _

/-- The datagrams of a run are taken in the order in which they arrived, each once. -/
theorem arrived_of_run : ∀ {as : List Action} {s : State}, run a.step s as = some s' →
    s.arrived ++ as.filterMap Action.arrival =
      (trace a.step State.events s as).filterMap (fun x => x.2.taken) ++ s'.arrived
  | [], s, hr => by
    cases hr
    exact List.append_nil _
  | act :: as, s, hr => by
    obtain ⟨r, ha, hr⟩ := Option.bind_eq_some_iff.1 hr
    have hhead : (act :: as).filterMap Action.arrival = act.arrival.toList ++ as.filterMap Action.arrival := by
      cases h : act.arrival with
      | none => rw [List.filterMap_cons_none h]; rfl
      | some d => rw [List.filterMap_cons_some h]; rfl
    rw [hhead, ← List.append_assoc, arrived_of_step ha, List.append_assoc, arrived_of_run hr, trace_cons ha,
      List.filterMap_append, List.append_assoc]

/-- The socket got what the calls handed over, in order. -/
theorem handed_of_run (hr : run a.step init as = some s) :
    s.handed = (a.traffic as).filterMap fun x => x.2.given := by
  have hstep : ∀ s h act s', s.handed = h.filterMap (fun x => x.2.given) → a.step s act = some s' →
      s'.handed = (h ++ s.events act).filterMap fun x : Nat × Event => x.2.given := by
    intro s h act s' hs ha
    rw [List.filterMap_append, ← hs]
    cases trans_of_step ha with
    | relayed hph harr | foreignClosed hph harr | foreign hph harr =>
      simp [State.events, State.leave, State.set, harr, note, Event.given]
    | transmit hph => simp [State.events, hph, note, Event.given, Function.comp_def]
    | call | enter | refuse | closed | flag | select | changed | socketError | leaveQueue | abandon | abandonSend
    | arrive | controlData | controlEnd | report => exact (List.append_nil _).symm
  exact run_trace (I := fun s h => s.handed = h.filterMap fun x : Nat × Event => x.2.given) hstep (h := []) rfl hr

end Run

/-! ## The story of a call -/

section Stories

variable {s s' : State} {as : List Action} {act : Action} {t : Nat} {es : List Event} {h : List (Nat × Event)}

theorem searches_nil (c : Call) : a.Searches c [] := by
  cases c with
  | send c => rfl
  | recv c => exact fun _ he => absurd he List.not_mem_nil

/-- A receive took one more datagram that it does not return. -/
theorem Searches.snoc {c : RecvCall} {source : SocketAddr} {bytes : List UInt8} (h : a.Searches (.recv c) es)
    (hskip : source = a.relay → a.Skips c bytes) : a.Searches (.recv c) (es ++ [.took source bytes]) := by
  intro e he
  rcases List.mem_append.1 he with he | he
  · exact h e he
  · exact ⟨source, bytes, List.mem_singleton.1 he, hskip⟩

theorem Story.of_entering {c : Call} (h : a.Story (.entering c) es) : a.Searches c es := by
  cases h
  assumption

theorem Story.of_queued {c : Call} {w : Work} (h : a.Story (.queued c w) es) : a.Searches c es := by
  cases h
  assumption

theorem Story.of_selecting {c : RecvCall} {payload packet : List UInt8} (h : a.Story (.selecting c payload packet) es) :
    a.Searches (.recv c) es := by
  cases h
  assumption

theorem Story.of_sending {c : SendCall} {payload frame : List UInt8} (h : a.Story (.sending c payload frame) es) :
    es = [] := by
  cases h
  rfl

/-- A call that failed searched in vain. -/
theorem Story.error {c : Call} (h : a.Searches c es) (e : Error) : a.Story (.finished c (err e)) es :=
  .failed h nofun

/-- A datagram that is skipped is well formed. -/
theorem Skips.exists_into {c : RecvCall} {bytes : List UInt8} (h : a.Skips c bytes) :
    ∃ r, (datagramOf a.b64 (bytes.take MAX_UDP_PAYLOAD)).into c.buffer = ok r := by
  cases c with
  | recvFrom buffer => exact h.elim
  | recv buffer =>
    obtain ⟨source, payload, hd, -⟩ := h
    exact ⟨_, into_eq_ok.2 ⟨source, payload, hd, rfl⟩⟩

/-- A receive returns the datagram of the relay that it took, or skips it. -/
theorem story_afterPacket {c : RecvCall} {bytes : List UInt8} (h : a.Searches (.recv c) es) :
    a.Story (a.afterPacket c ((datagramOf a.b64 (bytes.take MAX_UDP_PAYLOAD)).into c.buffer))
      (es ++ [.took a.relay bytes]) := by
  match hr : (datagramOf a.b64 (bytes.take MAX_UDP_PAYLOAD)).into c.buffer with
  | ok r =>
    obtain ⟨source, payload, hd, rfl⟩ := into_eq_ok.1 hr
    cases c with
    | recvFrom buffer => exact .received (r := ok _) h hr.symm id
    | recv buffer =>
      by_cases hpeer : some source = a.peerAddr
      · have hskip : ¬ a.Skips (.recv buffer) bytes := by
          rintro ⟨source', payload', hd', hne⟩
          rw [hd] at hd'
          cases hd'
          exact hne hpeer
        simp only [afterPacket, RecvCall.again, if_pos hpeer]
        exact .received (r := ok _) h hr.symm hskip
      · simp only [afterPacket, RecvCall.again, if_neg hpeer]
        exact .entering (Searches.snoc (c := .recv buffer) h fun _ => ⟨source, payload, hd, hpeer⟩)
  | err e =>
    refine .received (r := err e) h hr.symm fun hskip => ?_
    obtain ⟨r, hok⟩ := hskip.exists_into
    exact absurd (hr.symm.trans hok) nofun
  | panicked =>
    refine .received (r := panicked) h hr.symm fun hskip => ?_
    obtain ⟨r, hok⟩ := hskip.exists_into
    exact absurd (hr.symm.trans hok) nofun

/-- A send that has read the flag has done nothing else. -/
theorem story_afterFlag {c : SendCall} (payload : List UInt8) (target : SocksAddress) :
    a.Story (a.afterFlag c payload target) [] := by
  unfold afterFlag
  split
  · exact .sending
  · exact .error (searches_nil _) _
  · exact .failed (searches_nil _) nofun

/-- A step adds to the story of its call what it does. -/
theorem story_step (hc : a.Calls s) (hs : ∀ t, a.Story (s.phase t) (of h t)) (ha : a.Trans s act s') :
    ∀ t, a.Story (s'.phase t) (of (h ++ s.events act) t) := by
  have move : ∀ {t : Nat} {p : Phase} (es : List Event), s'.phase = Function.update s.phase t p →
      s.events act = note t es → a.Story p (of h t ++ es) → ∀ u, a.Story (s'.phase u) (of (h ++ s.events act) u) := by
    intro t p es hph hes hp u
    rw [hph, hes]
    exact of_update hs hp u
  have quiet : ∀ {t : Nat} {p : Phase}, s'.phase = Function.update s.phase t p → s.events act = [] →
      a.Story p (of h t) → ∀ u, a.Story (s'.phase u) (of (h ++ s.events act) u) := by
    intro t p hph hes hp
    exact move [] hph hes (by rwa [List.append_nil])
  cases ha with
  | @call t c hph =>
    have hnil : of h t = [] := by
      have ht := hs t
      rw [hph] at ht
      generalize of h t = es at ht
      cases ht
      rfl
    exact quiet rfl rfl (.entering (hnil ▸ searches_nil c))
  | enter hph => exact quiet rfl rfl (.queued (hph ▸ hs _).of_entering)
  | @refuse t c o hph hp ho =>
    refine quiet rfl rfl (.failed (hph ▸ hs t).of_entering fun answer hok => ?_)
    rw [ho] at hok
    obtain ⟨w, hw, -⟩ := bind_eq_ok.1 hok
    exact hp w hw
  | closed hph => exact quiet rfl rfl (.error (hph ▸ hs _).of_queued _)
  | @flag t c payload target hph =>
    have hnil : of h t = [] := (hph ▸ hs t).of_queued
    exact quiet rfl rfl (hnil ▸ story_afterFlag payload target)
  | select hph => exact quiet rfl rfl (.selecting (hph ▸ hs _).of_queued)
  | @relayed t c payload packet bytes arrived hph harr =>
    obtain ⟨hbuffer, hlen⟩ := hc.selecting t c payload packet hph
    refine move [.took a.relay bytes] rfl ?_ ?_
    · simp only [State.events, harr]
      rfl
    · rw [parsePacket_fillPacket a.b64 payload bytes hlen, hbuffer]
      exact story_afterPacket (hph ▸ hs t).of_selecting
  | @foreignClosed t c payload packet bytes source arrived hph harr hne =>
    refine move [.took source bytes] rfl ?_ ?_
    · simp only [State.events, harr]
      rfl
    · exact .error ((hph ▸ hs t).of_selecting.snoc fun hrelay => absurd hrelay hne) _
  | @foreign t c payload packet bytes source arrived hph harr hne =>
    refine move [.took source bytes] rfl ?_ ?_
    · simp only [State.events, harr]
      rfl
    · exact .selecting ((hph ▸ hs t).of_selecting.snoc fun hrelay => absurd hrelay hne)
  | changed hph | socketError hph => exact quiet rfl rfl (.error (hph ▸ hs _).of_selecting _)
  | @transmit t c payload frame written hph =>
    have hnil : of h t = [] := (hph ▸ hs t).of_sending
    obtain ⟨target, hprep, hframe⟩ := hc.sending t c payload frame hph
    refine move ((transmitted frame written).map .gave) rfl ?_ ?_
    · simp only [State.events, hph]
    · rw [hnil]
      exact .sent hprep hframe
  | leaveQueue hph => exact quiet rfl rfl (.cancelled (hph ▸ hs _).of_queued)
  | abandon hph => exact quiet rfl rfl (.cancelled (hph ▸ hs _).of_selecting)
  | abandonSend hph => exact quiet rfl rfl (.cancelled (hph ▸ hs _).of_sending)
  | arrive | controlData | controlEnd | report =>
    intro t
    rw [of_append]
    exact (List.append_nil _).symm ▸ hs t

/-- **What every call did fits where it is.** -/
theorem story_of_run (hr : run a.step init as = some s) (t : Nat) : a.Story (s.phase t) (of (a.traffic as) t) := by
  have hstep : ∀ s h act s', (a.Inv s ∧ a.Calls s ∧ ∀ t, a.Story (s.phase t) (of h t)) → a.step s act = some s' →
      a.Inv s' ∧ a.Calls s' ∧ ∀ t, a.Story (s'.phase t) (of (h ++ s.events act) t) := by
    rintro s h act s' ⟨hi, hc, hs⟩ ha
    have htrans := trans_of_step ha
    exact ⟨inv_step hi htrans, calls_step hi hc htrans, story_step hc hs htrans⟩
  have hall := run_trace (I := fun s h => a.Inv s ∧ a.Calls s ∧ ∀ t, a.Story (s.phase t) (of h t)) hstep (h := [])
    ⟨inv_init, calls_init, fun _ => .idle⟩ hr
  exact hall.2.2 t

end Stories

/-! ## Whole runs -/

/-- The receive that a call is. -/
def Phase.receive? : Phase → Option RecvCall
  | entering (.recv c) => some c
  | queued (.recv c) _ => some c
  | selecting c _ _ => some c
  | finished (.recv c) _ => some c
  | cancelled (.recv c) => some c
  | _ => none

variable (a) in
/-- The datagrams of the relay among those that a call took. -/
def relayed (es : List Event) : List (List UInt8) :=
  (es.filterMap Event.taken).filterMap fun d => if d.1 = a.relay then some d.2 else none

/-- The datagrams that a call handed over. -/
def handedOver (es : List Event) : List (List UInt8) := es.filterMap Event.given

section Totals

variable {s : State} {as : List Action} {es : List Event} {p : Phase}

theorem relayed_append (es es' : List Event) : a.relayed (es ++ es') = a.relayed es ++ a.relayed es' := by
  simp [relayed]

theorem relayed_took (bytes : List UInt8) : a.relayed [.took a.relay bytes] = [bytes] := by
  simp [relayed, Event.taken]

/-- A receive that searches took only datagrams of the relay that it skips. -/
theorem Searches.skips {c : RecvCall} (h : a.Searches (.recv c) es) : ∀ m ∈ a.relayed es, a.Skips c m := by
  intro m hm
  obtain ⟨⟨source, bytes⟩, hd, hrelay⟩ := List.mem_filterMap.1 hm
  obtain ⟨e, he, htaken⟩ := List.mem_filterMap.1 hd
  obtain ⟨source', bytes', rfl, hskip⟩ := h e he
  cases htaken
  split_ifs at hrelay with hsource
  cases hrelay
  exact hskip hsource

/-- A receive that searches handed nothing over. -/
theorem Searches.handedOver {c : Call} (h : a.Searches c es) : handedOver es = [] := by
  cases c with
  | send c => rw [show es = [] from h]; rfl
  | recv c =>
    refine List.filterMap_eq_nil_iff.2 fun e he => ?_
    obtain ⟨source, bytes, rfl, -⟩ := h e he
    rfl

/-- What a call that searches, or ended without a datagram, took of the relay. -/
theorem Searches.skips_of_receive {c : Call} (h : a.Searches c es) (hp : ∀ r, c = .recv r → p.receive? = some r) :
    ∀ m ∈ a.relayed es, ∃ r, p.receive? = some r ∧ a.Skips r m := by
  cases c with
  | send c =>
    rw [show es = [] from h]
    exact fun _ hm => absurd hm List.not_mem_nil
  | recv c => exact fun m hm => ⟨c, hp c rfl, h.skips m hm⟩

theorem handedOver_took {c : RecvCall} (h : a.Searches (.recv c) es) (source : SocketAddr) (bytes : List UInt8) :
    handedOver (es ++ [.took source bytes]) = [] := by
  have hsnoc : handedOver (es ++ [.took source bytes]) = handedOver es ++ [] := List.filterMap_append
  rw [hsnoc, h.handedOver, List.append_nil]

/-- A call hands over what the socket took of one frame, or nothing. -/
theorem Story.length_handedOver_le (h : a.Story p es) : (handedOver es).length ≤ 1 := by
  cases h with
  | idle | sending => exact Nat.zero_le 1
  | entering h | queued h | selecting h | cancelled h | failed h =>
    rw [h.handedOver]
    exact Nat.zero_le 1
  | @sent c payload frame target written =>
    have hgiven : handedOver ((transmitted frame written).map .gave) = transmitted frame written := by
      simp [handedOver, Event.given, Function.comp_def]
    rw [hgiven]
    cases written <;> simp [transmitted]
  | received h =>
    rw [handedOver_took h]
    exact Nat.zero_le 1

/-- A call that is no send that returned hands over nothing. -/
theorem Story.handedOver_of_other (h : a.Story p es) (hp : ∀ c o, p ≠ .finished (.send c) o) : handedOver es = [] := by
  cases h with
  | idle | sending => rfl
  | entering h | queued h | selecting h | cancelled h | failed h => exact h.handedOver
  | sent => exact absurd rfl (hp _ _)
  | received h => exact handedOver_took h _ _

/-- A send that returned `Ok` handed over the datagram of its payload and its target. -/
theorem Story.handedOver_of_sent {c : SendCall} {n : Nat} (h : a.Story (.finished (.send c) (ok (.sent n))) es) :
    ∃ payload target w, a.prepare (.send c) = ok (.send payload target) ∧ a.Fits payload target w ∧ n = payload.length ∧
      handedOver es = [SOCKS_UDP_PREFIX ++ w ++ payload] := by
  generalize hp : Phase.finished (.send c) (ok (.sent n)) = p at h
  cases h with
  | failed h ho =>
    cases hp
    exact absurd rfl (ho _)
  | @sent c' payload frame target written hprep hframe =>
    obtain ⟨hcall, ho⟩ := Phase.finished.inj hp
    cases hcall
    obtain ⟨n', hresult, hn⟩ := bind_eq_ok.1 ho.symm
    cases hn
    obtain ⟨rfl, rfl⟩ := sendResult_eq_ok.1 hresult
    obtain ⟨w, hfits, rfl⟩ := exists_fits_of_associatedFrame hframe
    refine ⟨payload, target, w, hprep, hfits, rfl, ?_⟩
    simp [handedOver, Event.given, transmitted]
  | idle | sending | entering | queued | selecting | cancelled | received => cases hp

/-- A `recv` that returned a datagram took it from the relay last, and it is from the fixed peer. -/
theorem Story.source_of_received {buffer : List UInt8} {r : Received}
    (h : a.Story (.finished (.recv (.recv buffer)) (ok (.received r))) es) : some r.source = a.peerAddr ∧
      ∃ skipped bytes payload, a.relayed es = skipped ++ [bytes] ∧
        datagramOf a.b64 (bytes.take MAX_UDP_PAYLOAD) = ok (r.source, payload) := by
  generalize hp : Phase.finished (.recv (.recv buffer)) (ok (.received r)) = p at h
  cases h with
  | failed h ho =>
    cases hp
    exact absurd rfl (ho _)
  | @received c es bytes o h ho hskip =>
    obtain ⟨hcall, hanswer⟩ := Phase.finished.inj hp
    cases hcall
    obtain ⟨r', hr', hr⟩ := bind_eq_ok.1 hanswer.symm
    cases hr
    obtain ⟨source, payload, hd, rfl⟩ := into_eq_ok.1 (ho.symm.trans hr')
    refine ⟨?_, a.relayed es, bytes, payload, by rw [relayed_append, relayed_took], hd⟩
    by_contra hne
    exact hskip ⟨source, payload, hd, hne⟩
  | idle | sending | entering | queued | selecting | cancelled | sent => cases hp

/-- **Every datagram of the relay is received once.** For every run of the calls on an association, in any interleaving
and with calls dropped wherever they wait: the calls take the datagrams in the order in which they arrived, each once,
and the others still wait in the socket. Of the datagrams of the relay, a call takes those that it skips, and then
returns what the next one says; a call that has returned none, because it waits, failed otherwise or was dropped, has
taken only datagrams that it skips. -/
theorem relay_datagrams_once (hr : run a.step init as = some s) :
    as.filterMap Action.arrival = (a.traffic as).filterMap (fun x => x.2.taken) ++ s.arrived ∧
    ∀ t, (∃ c skipped bytes, a.relayed (of (a.traffic as) t) = skipped ++ [bytes] ∧ (∀ m ∈ skipped, a.Skips c m) ∧
        ¬ a.Skips c bytes ∧ s.phase t = .finished (.recv c)
          ((datagramOf a.b64 (bytes.take MAX_UDP_PAYLOAD)).into c.buffer >>= fun r => ok (.received r))) ∨
      (∀ c answer, s.phase t ≠ .finished (.recv c) (ok answer)) ∧
        ∀ m ∈ a.relayed (of (a.traffic as) t), ∃ c, (s.phase t).receive? = some c ∧ a.Skips c m := by
  refine ⟨arrived_of_run hr, fun t => ?_⟩
  have hstory := story_of_run hr t
  generalize of (a.traffic as) t = es at hstory ⊢
  generalize s.phase t = p at hstory ⊢
  cases hstory with
  | idle | sending => exact .inr ⟨nofun, fun _ hm => absurd hm List.not_mem_nil⟩
  | entering h | queued h | cancelled h => exact .inr ⟨nofun, h.skips_of_receive (by rintro r rfl; rfl)⟩
  | selecting h => exact .inr ⟨nofun, h.skips_of_receive (by rintro r ⟨⟩; rfl)⟩
  | failed h ho =>
    refine .inr ⟨fun c answer hp => ?_, h.skips_of_receive (by rintro r rfl; rfl)⟩
    cases hp
    exact ho answer rfl
  | @sent c payload frame target written hprep hframe =>
    refine .inr ⟨nofun, fun m hm => ?_⟩
    have hnil : a.relayed ((transmitted frame written).map .gave) = [] := by
      simp [relayed, Event.taken, Function.comp_def]
    exact absurd (hnil ▸ hm) List.not_mem_nil
  | @received c es bytes r h hr hskip =>
    refine .inl ⟨c, a.relayed es, bytes, ?_, h.skips, hskip, by rw [hr]⟩
    rw [relayed_append, relayed_took]

/-- A client of a name server. -/
def nameClient : Association :=
  ⟨Base64.standardNoPad, .v4 (Ipv4Addr.new 10 0 0 1) 1080, some (.Ip (.v4 (Ipv4Addr.new 8 8 8 8) 53))⟩

/-- The answer of the name server, as the relay sends it. -/
def nameAnswer : List UInt8 := [0, 0, 0, 1, 8, 8, 8, 8, 0, 53, 0x6f, 0x6b]

/-- The answer arrives while one receive has the mutex and another one waits; the first is dropped before it takes
it. -/
def droppedReader : List Action :=
  [.call 0 (.recv (.recvFrom [0, 0])), .enter 0, .grant 0, .call 1 (.recv (.recv [0, 0])), .enter 1,
    .arrive nameClient.relay nameAnswer, .cancel 0, .grant 1, .datagram 1]

/-- The second receive returns the answer. -/
theorem relay_datagrams_once_dropped :
    ∃ s, run nameClient.step init droppedReader = some s ∧
      nameClient.relayed (of (nameClient.traffic droppedReader) 0) = [] ∧
      ∃ c r, s.phase 1 = .finished (.recv c) (ok (.received r)) ∧ r.source = .Ip (.v4 (Ipv4Addr.new 8 8 8 8) 53) := by
  have hrun : (run nameClient.step init droppedReader).isSome := rfl
  have htook : nameClient.relayed (of (nameClient.traffic droppedReader) 1) = [nameAnswer] := rfl
  have hanswer : datagramOf nameClient.b64 (nameAnswer.take MAX_UDP_PAYLOAD) =
    ok (.Ip (.v4 (Ipv4Addr.new 8 8 8 8) 53), [0x6f, 0x6b]) := by decide +kernel
  refine ⟨_, (Option.some_get hrun).symm, rfl, ?_⟩
  rcases (relay_datagrams_once (Option.some_get hrun).symm).2 1 with
    ⟨c, skipped, bytes, hrelayed, -, -, hph⟩ | ⟨-, hskips⟩
  · rw [htook] at hrelayed
    have hlast := congrArg List.getLast? hrelayed
    rw [List.getLast?_concat] at hlast
    obtain rfl : nameAnswer = bytes := Option.some.inj hlast
    rw [hanswer] at hph
    exact ⟨c, _, hph, rfl⟩
  · obtain ⟨c, -, hskip⟩ := hskips nameAnswer (htook ▸ List.mem_singleton_self nameAnswer)
    cases c with
    | recvFrom buffer => exact hskip.elim
    | recv buffer =>
      obtain ⟨source, payload, hd, hne⟩ := hskip
      rw [hanswer] at hd
      cases hd
      exact absurd rfl hne

/-- **Every send hands over one datagram at most.** For every run, the socket got what the calls handed over, in order.
A send that returned `Ok` handed over the datagram of its payload and its target, and nothing else; a call that waits,
was dropped or is a receive handed over nothing. -/
theorem sends_hand_over_once (hr : run a.step init as = some s) :
    s.handed = (a.traffic as).filterMap (fun x => x.2.given) ∧
    ∀ t, (handedOver (of (a.traffic as) t)).length ≤ 1 ∧
      (∀ c n, s.phase t = .finished (.send c) (ok (.sent n)) → ∃ payload target w,
        a.prepare (.send c) = ok (.send payload target) ∧ a.Fits payload target w ∧ n = payload.length ∧
        handedOver (of (a.traffic as) t) = [SOCKS_UDP_PREFIX ++ w ++ payload]) ∧
      ((∀ c o, s.phase t ≠ .finished (.send c) o) → handedOver (of (a.traffic as) t) = []) := by
  refine ⟨handed_of_run hr, fun t => ?_⟩
  have hstory := story_of_run hr t
  refine ⟨hstory.length_handedOver_le, fun c n hph => ?_, hstory.handedOver_of_other⟩
  rw [hph] at hstory
  exact hstory.handedOver_of_sent

/-- A question to the name server. -/
theorem sends_hand_over_once_question :
    let asked : List Action := [.call 0 (.send (.send [0x68, 0x69])), .enter 0, .grant 0, .transmit 0 (.ok 12)]
    ∃ s, run nameClient.step init asked = some s ∧ ∃ payload target w, nameClient.Fits payload target w ∧
      handedOver (of (nameClient.traffic asked) 0) = [SOCKS_UDP_PREFIX ++ w ++ payload] := by
  intro asked
  have hrun : (run nameClient.step init asked).isSome := rfl
  refine ⟨_, (Option.some_get hrun).symm, ?_⟩
  obtain ⟨-, hok, -⟩ := (sends_hand_over_once (Option.some_get hrun).symm).2 0
  obtain ⟨payload, target, w, -, hfits, -, hgave⟩ := hok (.send [0x68, 0x69]) 2 rfl
  exact ⟨payload, target, w, hfits, hgave⟩

end Totals

end LzcSdk.RemoteSocks.Association
