import LzcSdk.Lib.LockedOrder
import LzcSdk.RemoteSocks.CommandExact
import LzcSdk.RemoteSocks.FramedSend
import LzcSdk.RemoteSocks.UdpSockets

/-!
# Framed sessions

The sends of a framed socket write on the connection on which `connect_udp` or `bind_udp` has performed its command.

**What a framed session sends** (`framed_session`): from its first byte on, the connection has sent the offer, the
command of the socket with the resolved address, and then one frame for each send that returned `Ok`, in the order in
which the sends asked for the writer, in every run that cancels no send in the middle of its frame. Sends that fail or
are cancelled before their first byte leave nothing on it.
-/

namespace LzcSdk.RemoteSocks

open Outcome ByteIo Locked Lts

/-! ## The frames of a session -/

/-- The datagram of a send that returned `Ok`. -/
def sentBy (peerAddr : Option SocksAddress) (s : State SendCall Error Nat) (t : Nat) : Option Datagram :=
  match s.phase t with
  | .finished c (ok _) => c.datagram? peerAddr
  | _ => none

/-- In every run that cancels no send half way: the connection has sent `opening`, and then the frames of the sends that
returned `Ok`, in the order in which they asked for the writer; after a part of a frame the connection has failed. -/
def FramedSocket.Sends (sock : FramedSocket) (opening : List UInt8) : Prop :=
  ∀ as s, Along (step (framedSender sock.peerAddr)) neverHalfWay (init sock.stream.flat) as →
    run (step (framedSender sock.peerAddr)) (init sock.stream.flat) as = some s → s.runner = none →
    ∃ part, s.wire.sink.sent =
        opening ++ bytesOf (((as.filterMap Action.asks).filterMap (sentBy sock.peerAddr s)).map Datagram.frame) ++
          part ∧
      (part = [] ∨ LastPart s.wire part)

section Sends

variable {peerAddr : Option SocksAddress} {w₀ : Wire} {s : State SendCall Error Nat}
  {guard : State SendCall Error Nat → Action SendCall → Prop}

/-- A send that returned `Ok` had a program, and it ended. -/
theorem mem_log_of_sentBy (h : Reachable (step (framedSender peerAddr)) guard (init w₀) s) {t : Nat}
    (ht : sentBy peerAddr s t ≠ none) : t ∈ s.log.map Entry.task := by
  unfold sentBy at ht
  split at ht
  · rename_i c n hph
    obtain ⟨d, hd⟩ := Option.ne_none_iff_exists'.1 ht
    rcases answered_of_reachable h hph with ⟨hlog, -⟩ | ⟨href, -⟩
    · exact List.mem_map_of_mem (f := Entry.task) hlog
    · exact absurd (prepare_eq_ok.2 ⟨d, hd, rfl⟩) (href _)
  · exact absurd rfl ht

/-- The datagrams of the programs that ended are those of their calls. -/
theorem filterMap_sentBy (h : Reachable (step (framedSender peerAddr)) guard (init w₀) s) :
    (s.log.map Entry.task).filterMap (sentBy peerAddr s) = sentDatagrams peerAddr s.log := by
  have honce := onlyOnce_of_reachable (fun _ _ => rfl) h
  rw [List.filterMap_map, sentDatagrams]
  refine List.filterMap_congr fun e he => ?_
  simp only [Function.comp_apply, sentBy, honce.answer e he]
  cases e.outcome <;> rfl

/-- Every framed socket sends its frames in the order of its sends. -/
theorem framedSocket_sends (stream : Socket) (localAddr : SocksAddress) (peerAddr : Option SocksAddress) :
    (framedSocket stream localAddr peerAddr).Sends stream.sink.sent := by
  intro as s hg hr hquiet
  have hreach := hg.reachable hr
  obtain ⟨log, w, hlog, hserial, hbetween⟩ := atomic_of_reachable (disciplined_init _) rfl hreach
  rw [Between, hquiet] at hbetween
  obtain rfl : s.log = log := hlog
  have horder : (as.filterMap Action.asks).filterMap (sentBy peerAddr s) = sentDatagrams peerAddr s.log :=
    (filterMap_asks (fun _ _ => rfl) hr fun t ht => mem_log_of_sentBy hreach ht).trans (filterMap_sentBy hreach)
  change ∃ part, s.wire.sink.sent = stream.sink.sent ++
      bytesOf (((as.filterMap Action.asks).filterMap (sentBy peerAddr s)).map Datagram.frame) ++ part ∧ _
  rw [horder, hbetween]
  exact sent_of_serial hserial

/-- A send without a target on a socket without a peer is refused. -/
theorem send_not_connected (h : Reachable (step (framedSender none)) neverHalfWay (init w₀) s) {t : Nat}
    {payload : List UInt8} {o : Outcome Error Nat} (hph : s.phase t = .finished (.send payload) o) :
    o = err .socksUdpNotConnected := by
  have hprepare : (framedSender none).prepare (.send payload) = err .socksUdpNotConnected := rfl
  rcases answered_of_reachable h hph with ⟨hmem, -⟩ | ⟨-, rfl⟩
  · obtain ⟨log, w, hlog, hserial, -⟩ := atomic_of_reachable (disciplined_init _) rfl h
    obtain rfl : s.log = log := hlog
    obtain ⟨p, w', hp, -⟩ := hserial.exists_eval hmem
    cases hprepare.symm.trans hp
  · rw [hprepare]
    rfl

end Sends

namespace RemoteNetstack

/-! ## Sessions on a network stack -/

/-- A command that performs is one of the network stack: a task of some run ended with it. -/
def Performs (b64 : Base64.Engine) (performCommand : UInt8 → SocksAddress → Outcome Error (SocksAddress × Socket)) :
    Prop :=
  ∀ command address x, performCommand command address = ok x → ∃ s t, Reachable (step b64) freshDial init s ∧
    s.phase t = .finished ⟨command, address⟩ (ok x)

section Session

variable {b64 : Base64.Engine} {performCommand : UInt8 → SocksAddress → Outcome Error (SocksAddress × Socket)}
  {lookupHost : String → UInt16 → Outcome Error (List SocketAddr)} {target : SocksAddress} {sock : FramedSocket}

/-- The connection of a command has sent the opening, and nothing more. -/
theorem opening_of_performs (hpc : Performs b64 performCommand) {command : UInt8} {address bound : SocksAddress}
    {stream : Socket} (h : performCommand command address = ok (bound, stream)) :
    ∃ request, SocksAddress.encode b64 address = ok request ∧ stream.sink.sent = opening command request := by
  obtain ⟨s, t, hreach, hph⟩ := hpc command address (bound, stream) h
  obtain ⟨as, hfresh, hrun⟩ := hreach.exists_run
  obtain ⟨_, _, request, _, _, -, -, -, hexchanged⟩ := exchanged_of_ended ⟨hfresh, hrun, hph⟩
  exact ⟨request, hexchanged.encoded, congrArg (fun w : Wire => w.sink.sent) hexchanged.left⟩

/-- **What a framed session sends.** A connected socket has the resolved address as its peer and a bound one has none.
On the connection go the offer, the command with the encoding of this address, and then, while no send is cancelled half
way, one frame for each send that returned `Ok`, in the order in which the sends asked for the writer; behind a part of
a frame nothing more goes. A send without a target is refused on a bound socket. -/
theorem framed_session (hpc : Performs b64 performCommand) :
    (connectUdp performCommand lookupHost target = ok sock → ∃ peer request,
      resolveUdpTarget lookupHost target = ok (.Ip peer) ∧ SocksAddress.encode b64 (.Ip peer) = ok request ∧
      sock.peerAddr = some (.Ip peer) ∧
      sock.Sends ([0x05, 0x01, 0x00] ++ [0x05, CONNECT_UDP_COMMAND, 0x00] ++ request)) ∧
    (bindUdp performCommand lookupHost target = ok sock → ∃ address request,
      resolveUdpTarget lookupHost target = ok (.Ip address) ∧ SocksAddress.encode b64 (.Ip address) = ok request ∧
      sock.Sends ([0x05, 0x01, 0x00] ++ [0x05, BIND_UDP_COMMAND, 0x00] ++ request) ∧
      ∀ s, Reachable (Locked.step (framedSender sock.peerAddr)) neverHalfWay (Locked.init sock.stream.flat) s →
        ∀ t payload o, s.phase t = .finished (.send payload) o → o = err .socksUdpNotConnected) := by
  constructor
  · intro h
    obtain ⟨resolved, hresolve, hperform, hpeer⟩ := connectUdp_eq_ok h
    obtain ⟨peer, rfl, -⟩ := resolveUdpTarget_eq_ok hresolve
    obtain ⟨request, hrequest, hsent⟩ := opening_of_performs hpc hperform
    refine ⟨peer, request, hresolve, hrequest, hpeer, ?_⟩
    change sock.Sends (opening CONNECT_UDP_COMMAND request)
    rw [← hsent]
    exact framedSocket_sends sock.stream sock.localAddr sock.peerAddr
  · intro h
    obtain ⟨resolved, hresolve, hperform, hpeer⟩ := bindUdp_eq_ok h
    obtain ⟨address, rfl, -⟩ := resolveUdpTarget_eq_ok hresolve
    obtain ⟨request, hrequest, hsent⟩ := opening_of_performs hpc hperform
    refine ⟨address, request, hresolve, hrequest, ?_, ?_⟩
    · change sock.Sends (opening BIND_UDP_COMMAND request)
      rw [← hsent]
      exact framedSocket_sends sock.stream sock.localAddr sock.peerAddr
    · intro s hreach t payload o hph
      rw [hpeer] at hreach
      exact send_not_connected hreach hph

/-- A name server at 1.1.1.1. -/
def nameServer : SocksAddress := .Ip (.v4 (Ipv4Addr.new 1 1 1 1) 53)

/-- The connection of a command to it, behind a proxy that accepts and sends a byte. -/
def nameServerStream (command : UInt8) : Socket :=
  ⟨[[0xaa]], .eof, ⟨[0x05, 0x01, 0x00] ++ [0x05, command, 0x00] ++ [0x01, 1, 1, 1, 1, 0, 53], none⟩⟩

/-- One command to it, and no other. -/
def performNameServer (only command : UInt8) (address : SocksAddress) : Outcome Error (SocksAddress × Socket) :=
  if command = only ∧ address = nameServer then
    ok (.Ip (.v4 (Ipv4Addr.new 10 0 0 1) 8080), nameServerStream command)
  else err .remoteSocksTimeout

/-- The run of a network stack that performs it. -/
theorem ended_nameServer (command : UInt8) : ∃ s, Ended Base64.standardNoPad (acceptedActions ⟨command, nameServer⟩) s 0
    ⟨command, nameServer⟩ (ok (.Ip (.v4 (Ipv4Addr.new 10 0 0 1) 8080), nameServerStream command)) := by
  have hrun : (run (step Base64.standardNoPad) init (acceptedActions ⟨command, nameServer⟩)).isSome := rfl
  exact ⟨_, along_acceptedActions _, (Option.some_get hrun).symm, rfl⟩

theorem performs_nameServer (only : UInt8) : Performs Base64.standardNoPad (performNameServer only) := by
  intro command address x hx
  unfold performNameServer at hx
  split at hx
  · rename_i h
    obtain ⟨rfl, rfl⟩ := h
    cases hx
    obtain ⟨s, hended⟩ := ended_nameServer command
    exact ⟨s, 0, hended.fresh.reachable hended.run, hended.phase⟩
  · cases hx

/-- A socket that is connected to the name server. -/
theorem framed_session_nameServer : ∃ sock,
    connectUdp (performNameServer CONNECT_UDP_COMMAND) (fun _ _ => ok []) nameServer = ok sock ∧
    ∃ peer request, SocksAddress.encode Base64.standardNoPad (.Ip peer) = ok request ∧ sock.peerAddr = some (.Ip peer) ∧
      sock.Sends ([0x05, 0x01, 0x00] ++ [0x05, CONNECT_UDP_COMMAND, 0x00] ++ request) := by
  have hsock : connectUdp (performNameServer CONNECT_UDP_COMMAND) (fun _ _ => ok []) nameServer =
      ok ⟨nameServerStream CONNECT_UDP_COMMAND, .Ip (.v4 (Ipv4Addr.new 10 0 0 1) 8080), some nameServer⟩ := rfl
  obtain ⟨peer, request, -, hrequest, hpeer, hsends⟩ := (framed_session (performs_nameServer _)).1 hsock
  exact ⟨_, hsock, peer, request, hrequest, hpeer, hsends⟩

end Session

end RemoteNetstack

end LzcSdk.RemoteSocks
