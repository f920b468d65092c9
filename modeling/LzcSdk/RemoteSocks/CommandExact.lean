import LzcSdk.RemoteSocks.EndpointCache

/-!
# Commands that succeed

The network answers each dial of a command with a connection or an error, and `answered` is what it answered in a run. A
command that ended with a connection has the one that the network gave to its last dial: on it, from its first byte on,
it has said exactly what the handshake says for its own command and address, and the proxy has accepted it
(`command_exact`). What the connection still holds is what the proxy sent behind its reply.
-/

namespace LzcSdk.RemoteSocks.RemoteNetstack

open Outcome ByteIo Lts History

/-- A new connection has sent nothing. -/
def freshDial : State → Action → Prop := fun _ a => ∀ t stream, a = .dialed t (.ok stream) → stream.sink.sent = []

/-- The endpoint of a dial, and what the network answers to it. -/
abbrev Answer := RemoteSocksEndpoint × Except IoError Socket

/-- What the network answers to a command that dials. -/
def answers (s : State) : Action → List (Nat × Answer)
  | .dialed t answer =>
    match s.phase t with
    | .dialing _ endpoint _ => [(t, endpoint, answer)]
    | _ => []
  | _ => []

section Opened

variable (b64 : Base64.Engine)

/-- The answers of the network to the dials of a run. -/
def answered (as : List Action) : List (Nat × Answer) := trace (step b64) answers init as

/-- The run `as` of a network stack, in which every dial gives a new connection, and the end of one of its commands. -/
structure Ended (as : List Action) (s : State) (t : Nat) (c : Command) (o : Outcome Error (SocksAddress × Socket)) :
    Prop where
  fresh : Along (step b64) freshDial init as
  run : run (step b64) init as = some s
  phase : s.phase t = .finished c o

/-- The last thing that a command did was to connect, and its last dial gave it this new connection. -/
def Connected (tr : List Event) (ds : List Answer) (stream : Socket) : Prop :=
  ∃ endpoint, tr.getLast? = some (.connected endpoint) ∧ ds.getLast? = some (endpoint, .ok stream) ∧
    stream.sink.sent = []

/-- The command has a new connection, or it ended with what it made of one. -/
def Phase.Opened (tr : List Event) (ds : List Answer) : Phase → Prop
  | exchanging _ stream => Connected tr ds stream
  | finished c (ok x) => ∃ dialled, Connected tr ds dialled ∧
    performCommandWithDeadline b64 (ok dialled) c.command c.address = ok x
  | _ => True

variable {b64} {s s' : State} {t : Nat} {c : Command} {l : Lookup} {act : Action}
  {tr : List Event} {ds : List Answer}

/-- A command that goes to a phase. -/
theorem opened_update {p : Phase} (hp : p.Opened b64 tr ds) : (Function.update s.phase t p t).Opened b64 tr ds := by
  rw [Function.update_self]
  exact hp

theorem opened_connectProxy (c : Command) (l : Lookup) (r : Except Error RemoteSocksEndpoint) :
    (connectProxy c l r).1.Opened b64 tr ds := by
  unfold connectProxy
  split
  · trivial
  · trivial
  · trivial
  · split <;> trivial

theorem opened_locked (s : State) (t : Nat) (c : Command) (l : Lookup) :
    ((s.locked t c l).phase t).Opened b64 tr ds := by
  unfold State.locked
  split
  · exact opened_update (opened_connectProxy c l _)
  · exact opened_update (p := .resolving c l) trivial

theorem opened_proxyEndpoint (s : State) (t : Nat) (c : Command) (l : Lookup) :
    ((s.proxyEndpoint t c l).phase t).Opened b64 tr ds := by
  unfold State.proxyEndpoint
  dsimp only
  split
  · exact opened_locked _ t c l
  · exact opened_update (p := .waiting c l) trivial

/-- The network answers to the command of the action. -/
theorem of_answers_ne {u : Nat} (hu : u ≠ act.task) : of (answers s act) u = [] := by
  unfold answers
  split
  · split
    · change of (note _ [_]) u = []
      exact of_note_ne hu
    · rfl
  · rfl

/-- What a step makes of the command that it moves. -/
theorem opened_task {h : List (Nat × Answer)}
    (hi : (s.phase act.task).Opened b64 (of s.log act.task) (of h act.task)) (hg : freshDial s act)
    (ha : step b64 s act = some s') :
    (s'.phase act.task).Opened b64 (of s'.log act.task) (of (h ++ answers s act) act.task) := by
  cases trans_of_step ha with
  | call hph => exact opened_proxyEndpoint s _ _ _
  | grant hph => exact opened_locked s _ _ _
  | resolved hph => exact opened_update (opened_connectProxy _ _ _)
  | @connected t c endpoint again stream hph =>
    have hanswer : answers s (.dialed t (.ok stream)) = note t [(endpoint, .ok stream)] := by
      simp only [answers, hph]
      rfl
    refine opened_update (p := .exchanging c stream) ⟨endpoint, ?_, ?_, hg t stream rfl⟩
    · exact (congrArg List.getLast? of_note_self).trans (List.getLast?_concat ..)
    · rw [hanswer]
      exact (congrArg List.getLast? of_note_self).trans (List.getLast?_concat ..)
  | refused hph => exact opened_proxyEndpoint (s.tell _ _) _ _ _
  | refusedAgain hph => exact opened_update (p := .finished _ (err _)) trivial
  | @exchanged t c stream hph =>
    have hopened : Connected (of s.log t) (of h t) stream := by
      change (s.phase t).Opened b64 (of s.log t) (of h t) at hi
      rwa [hph] at hi
    rw [show answers s (.exchanged t) = [] from rfl, List.append_nil]
    refine opened_update ?_
    cases hp : performCommandWithDeadline b64 (ok stream) c.command c.address with
    | ok x => exact ⟨stream, hopened, hp⟩
    | err e => trivial
    | panicked => trivial
  | deadline hc => exact opened_update (p := .finished _ (err _)) trivial
  | cancel hc => exact opened_update (p := .cancelled _) trivial

theorem opened_step {h : List (Nat × Answer)}
    (hi : ∀ u, (s.phase u).Opened b64 (of s.log u) (of h u)) (hg : freshDial s act) (ha : step b64 s act = some s')
    (u : Nat) : (s'.phase u).Opened b64 (of s'.log u) (of (h ++ answers s act) u) := by
  obtain ⟨es, ht, -⟩ := touches_step ha
  rcases eq_or_ne u act.task with rfl | hu
  · exact opened_task (hi _) hg ha
  · rw [ht.others u hu, ht.log, of_note_of_ne hu, of_append, of_answers_ne hu, List.append_nil]
    exact hi u

theorem opened_of_run {as : List Action} (hg : Along (step b64) freshDial init as)
    (hr : run (step b64) init as = some s) (u : Nat) :
    (s.phase u).Opened b64 (of s.log u) (of (answered b64 as) u) := by
  have hall := hg.run_trace (I := fun s h => ∀ u, (s.phase u).Opened b64 (of s.log u) (of h u))
    (fun _ _ _ _ hi hg ha => opened_step hi hg ha) (h := []) (fun _ => trivial) hr
  exact hall u

end Opened

/-! ## The connection of a command -/

section Exact

variable (b64 : Base64.Engine)

/-- What a client sends in a handshake: the offer, the command, and the encoded address. -/
def opening (command : UInt8) (request : List UInt8) : List UInt8 :=
  [0x05, 0x01, 0x00] ++ [0x05, command, 0x00] ++ request

/-- What a command has made of a new connection `dialled`: it has sent the opening, the proxy has accepted it with an
address `w`, and `rest`, which the proxy sent behind this address, is still to be read. -/
structure Exchanged (dialled stream : Socket) (command : UInt8) (address bound : SocksAddress)
    (request w rest : List UInt8) : Prop where
  encoded : SocksAddress.encode b64 address = ok request
  accepted : dialled.segments.flatten = [0x05, 0x00] ++ [0x05, 0x00, 0x00] ++ w ++ rest
  decoded : SocksAddress.decode b64 w = ok bound
  left : stream.flat = ⟨rest, dialled.ending,
    ⟨opening command request, dialled.sink.room.map (· - (opening command request).length)⟩⟩

variable {b64} {command : UInt8} {address bound : SocksAddress} {dialled stream : Socket} {as : List Action} {s : State}
  {t : Nat} {c : Command}

/-- A handshake that succeeds on a new connection, whatever number of bytes the connection takes. -/
theorem exchanged_of_performCommand (hfresh : dialled.sink.sent = [])
    (h : performCommandWithDeadline b64 (ok dialled) command address = ok (bound, stream)) :
    ∃ request w rest, Exchanged b64 dialled stream command address bound request w rest := by
  have hp : performCommand b64 false (ok dialled) command address = ok (bound, stream) := h
  rw [performCommand_dialled, bind_ok_eq_ok] at hp
  obtain ⟨b, hfst, hpair⟩ := hp
  obtain ⟨rfl, rfl⟩ := Prod.mk.inj hpair
  obtain ⟨segments, ending, sent, room⟩ := dialled
  obtain rfl : sent = [] := hfresh
  have heval := Prog.run_flat (exchange b64 command address) ⟨segments, ending, ⟨[], room⟩⟩
  rw [hfst] at heval
  obtain ⟨request, hrequest⟩ := encode_of_exchange b64 heval.symm
  have hroom := Prog.room_of_eval _ heval.symm
  -- on a connection that takes everything the exchange is the same
  have hfull := Prog.eval_unlimited _ heval.symm
  obtain ⟨w, rest, hinput, hdecode⟩ := eval_exchange_eq_ok b64 hrequest hfull
  change segments.flatten = _ at hinput
  rw [hinput, eval_exchange_ok b64 hrequest hdecode] at hfull
  obtain ⟨-, hwire⟩ := Prod.mk.inj hfull
  refine ⟨request, w, rest, hrequest, hinput, hdecode, ?_⟩
  generalize Socket.flat _ = left at hroom hwire ⊢
  obtain ⟨input, ending', sent, room'⟩ := left
  cases hwire
  obtain rfl : room' = room.map (· - (opening command request).length) := hroom
  rfl

/-- A command with a connection has connected to an endpoint that it dialled, and has done nothing since. -/
theorem connected_of_story {tr : List Event} (h : Story (.finished c (ok (bound, stream))) tr) :
    ∃ endpoint, tr.getLast? = some (.connected endpoint) ∧ .dial endpoint ∈ tr := by
  cases h with
  | exchanged h =>
    cases h with
    | @connected c endpoint stream tr h => exact ⟨endpoint, by simp, by simp⟩
    | @connectedAgain c endpoint refreshed e stream tr h hne => exact ⟨refreshed, by simp, by simp⟩

/-- A command that ended with a connection has what the handshake made of the connection of its last dial. -/
theorem exchanged_of_ended (h : Ended b64 as s t c (ok (bound, stream))) : ∃ endpoint dialled request w rest,
    (of s.log t).getLast? = some (.connected endpoint) ∧
    (of (answered b64 as) t).getLast? = some (endpoint, .ok dialled) ∧
    performCommandWithDeadline b64 (ok dialled) c.command c.address = ok (bound, stream) ∧
    Exchanged b64 dialled stream c.command c.address bound request w rest := by
  have hopened : (Phase.finished c (ok (bound, stream))).Opened b64 (of s.log t) (of (answered b64 as) t) :=
    h.phase ▸ opened_of_run h.fresh h.run t
  obtain ⟨dialled, ⟨endpoint, hlast, hdial, hfresh⟩, hperform⟩ := hopened
  obtain ⟨request, w, rest, hexchanged⟩ := exchanged_of_performCommand hfresh hperform
  exact ⟨endpoint, dialled, request, w, rest, hlast, hdial, hperform, hexchanged⟩

/-- **A command that succeeds** has last connected to an endpoint that the resolver gave. The connection `dialled` that
the network gave to this dial has been used for the handshake of the command and for nothing else: it has sent the
offer, the command and the encoding of the address; the proxy has accepted both on it, with the address that is
returned; and it still holds what the proxy sent behind this address, with the ending and what is left of the room. -/
theorem command_exact (h : Ended b64 as s t c (ok (bound, stream))) : ∃ endpoint dialled request w rest,
    (of s.log t).getLast? = some (.connected endpoint) ∧ (∃ u, (u, .found (.ok endpoint)) ∈ s.log) ∧
    (of (answered b64 as) t).getLast? = some (endpoint, .ok dialled) ∧
    performCommandWithDeadline b64 (ok dialled) c.command c.address = ok (bound, stream) ∧
    Exchanged b64 dialled stream c.command c.address bound request w rest := by
  have hi : Inv s := inv_of_reachable (h.fresh.reachable h.run)
  obtain ⟨endpoint, dialled, request, w, rest, hlast, hdial, hperform, hexchanged⟩ := exchanged_of_ended h
  obtain ⟨endpoint', hlast', hmem⟩ := connected_of_story (h.phase ▸ hi.story t)
  obtain rfl : endpoint = endpoint' := Event.connected.inj (Option.some.inj (hlast.symm.trans hlast'))
  obtain ⟨before, after, hlog⟩ := List.append_of_mem (mem_of.1 hmem)
  obtain ⟨u, hu⟩ := hi.known before (t, .dial endpoint) after hlog endpoint rfl
  exact ⟨endpoint, dialled, request, w, rest, hlast, ⟨u, hlog ▸ List.mem_append_left _ hu⟩, hdial, hperform, hexchanged⟩

/-- A proxy that accepts a command and sends a byte behind the reply. -/
def acceptingProxy : Socket :=
  ⟨[[0x05, 0x00, 0x05, 0x00], [0x00, 0x01, 10, 0, 0, 1, 0x1f, 0x90, 0xaa]], .eof, ⟨[], none⟩⟩

/-- The actions of one command on a connection to it. -/
def acceptedActions (c : Command) : List Action :=
  [.call 0 c, .resolved 0 (.ok (endpointAt 1080)), .dialed 0 (.ok acceptingProxy), .exchanged 0]

theorem along_acceptedActions (c : Command) : Along (step b64) freshDial init (acceptedActions c) := by
  intro before a after r has _ t stream ha
  have hmem : a ∈ acceptedActions c := has ▸ List.mem_append_right before List.mem_cons_self
  simp only [acceptedActions, List.mem_cons, List.not_mem_nil, or_false] at hmem
  rcases hmem with rfl | rfl | rfl | rfl <;> cases ha
  rfl

/-- The connection after the command. -/
def connectedStream : Socket :=
  ⟨[[0xaa]], .eof, ⟨[0x05, 0x01, 0x00] ++ [0x05, 0x01, 0x00] ++ [0x01, 1, 1, 1, 1, 0, 80], none⟩⟩

/-- A command connects and succeeds. -/
theorem command_exact_connected : ∃ s, Ended Base64.standardNoPad (acceptedActions connect) s 0 connect
      (ok (.Ip (.v4 (Ipv4Addr.new 10 0 0 1) 8080), connectedStream)) ∧
    ∃ endpoint dialled request w rest,
      (of (answered Base64.standardNoPad (acceptedActions connect)) 0).getLast? = some (endpoint, .ok dialled) ∧
      Exchanged Base64.standardNoPad dialled connectedStream connect.command connect.address
        (.Ip (.v4 (Ipv4Addr.new 10 0 0 1) 8080)) request w rest := by
  have hrun : (run (step Base64.standardNoPad) init (acceptedActions connect)).isSome := rfl
  have hended : Ended Base64.standardNoPad (acceptedActions connect) (Option.get _ hrun) 0 connect
      (ok (.Ip (.v4 (Ipv4Addr.new 10 0 0 1) 8080), connectedStream)) :=
    ⟨along_acceptedActions connect, (Option.some_get hrun).symm, rfl⟩
  obtain ⟨endpoint, dialled, request, w, rest, -, -, hdial, -, hexchanged⟩ := command_exact hended
  exact ⟨_, hended, endpoint, dialled, request, w, rest, hdial, hexchanged⟩

end Exact

end LzcSdk.RemoteSocks.RemoteNetstack
