import LzcSdk.RemoteSocks.FramedSession
import LzcSdk.RemoteSocks.Listener

/-!
# Tunnels

`connect_tcp` performs a CONNECT command and hands out the connection as a stream. **The stream is a tunnel**
(`tunnel_transparent`): whatever is read and written on it goes as on a direct connection on which the peer sends what
the proxy sent behind its reply, and the proxy has nothing of the client between the request and these bytes.
-/

namespace LzcSdk.RemoteSocks.RemoteNetstack

open Outcome ByteIo Lts History

/-- Connect to an address. -/
def connectTcp (performCommand : UInt8 → SocksAddress → Outcome Error (SocksAddress × Socket))
    (address : SocksAddress) : Outcome Error (RemoteTcpStream Socket) := do
  let (localAddr, stream) ← performCommand CONNECT_COMMAND address
  return ⟨stream, localAddr, address⟩

section Tunnel

variable {b64 : Base64.Engine} {performCommand : UInt8 → SocksAddress → Outcome Error (SocksAddress × Socket)}
  {address : SocksAddress} {stream : RemoteTcpStream Socket} {as : List Action} {s : State} {t : Nat}

theorem connectTcp_eq_ok (h : connectTcp performCommand address = ok stream) :
    performCommand CONNECT_COMMAND address = ok (stream.localAddr, stream.inner) ∧ stream.peerAddr = address := by
  obtain ⟨⟨localAddr, inner⟩, hperform, h⟩ := bind_eq_ok.1 h
  cases h
  exact ⟨hperform, rfl⟩

/-- **A connected stream is a tunnel.** The command `t` of a run is the one that `connect_tcp` performed, and `dialled`
is the connection that the network gave to its last dial. The proxy has accepted the command on it, with the local
address of the stream. For every program of reads and writes on the stream, on whatever segments the bytes come in: its
outcome, what it leaves unread and what it sends are those on a direct connection to a peer that sends what the proxy
sent behind its reply, and they stand behind the handshake. -/
theorem tunnel_transparent
    (hrun : Ended b64 as s t ⟨CONNECT_COMMAND, address⟩ (performCommand CONNECT_COMMAND address))
    (h : connectTcp performCommand address = ok stream) :
    stream.peerAddr = address ∧ ∃ endpoint dialled request w rest,
      (of (answered b64 as) t).getLast? = some (endpoint, .ok dialled) ∧
      performCommandWithDeadline b64 (ok dialled) CONNECT_COMMAND address = ok (stream.localAddr, stream.inner) ∧
      Exchanged b64 dialled stream.inner CONNECT_COMMAND address stream.localAddr request w rest ∧
      ∀ {ε α : Type} [FromIo ε] (p : Prog ε α),
        let before := opening CONNECT_COMMAND request
        let direct := p.eval ⟨rest, dialled.ending, ⟨[], dialled.sink.room.map (· - before.length)⟩⟩
        (p.run stream.inner).1 = direct.1 ∧ (p.run stream.inner).2.flat = direct.2.behind before := by
  obtain ⟨hperform, hpeer⟩ := connectTcp_eq_ok h
  rw [hperform] at hrun
  obtain ⟨endpoint, dialled, request, w, rest, -, hanswer, hcommand, hexchanged⟩ := exchanged_of_ended hrun
  refine ⟨hpeer, endpoint, dialled, request, w, rest, hanswer, hcommand, hexchanged, fun {ε α} _ p => ?_⟩
  intro before direct
  have hflat : stream.inner.flat =
      Wire.behind before ⟨rest, dialled.ending, ⟨[], dialled.sink.room.map (· - before.length)⟩⟩ := by
    rw [hexchanged.left, Wire.behind, Sink.behind, List.append_nil]
  have hbehind := Prog.eval_behind before p ⟨rest, dialled.ending, ⟨[], dialled.sink.room.map (· - before.length)⟩⟩
  rw [← hflat] at hbehind
  constructor
  · rw [Prog.run_fst, hbehind]
  · rw [Prog.run_snd, hbehind]

/-- Write a byte, and read one. -/
def askOnce : Prog Error UInt8 := do
  Prog.writeAll [0x68]
  Prog.readU8

/-- A client writes a byte through a tunnel to the name server, and reads one. -/
theorem tunnel_transparent_nameServer : ∃ stream,
    connectTcp (performNameServer CONNECT_COMMAND) nameServer = ok stream ∧ ∃ endpoint dialled request rest,
    (of (answered Base64.standardNoPad (acceptedActions ⟨CONNECT_COMMAND, nameServer⟩)) 0).getLast? =
      some (endpoint, .ok dialled) ∧
    (askOnce.run stream.inner).1 = (askOnce.eval ⟨rest, dialled.ending,
      ⟨[], dialled.sink.room.map (· - (opening CONNECT_COMMAND request).length)⟩⟩).1 := by
  obtain ⟨s, hended⟩ : ∃ s, Ended Base64.standardNoPad (acceptedActions ⟨CONNECT_COMMAND, nameServer⟩) s 0
      ⟨CONNECT_COMMAND, nameServer⟩ (performNameServer CONNECT_COMMAND CONNECT_COMMAND nameServer) :=
    ended_nameServer CONNECT_COMMAND
  have hstream : connectTcp (performNameServer CONNECT_COMMAND) nameServer =
      ok ⟨nameServerStream CONNECT_COMMAND, .Ip (.v4 (Ipv4Addr.new 10 0 0 1) 8080), nameServer⟩ := rfl
  obtain ⟨-, endpoint, dialled, request, w, rest, hanswer, -, -, hall⟩ :=
    tunnel_transparent hended hstream
  exact ⟨_, hstream, endpoint, dialled, request, rest, hanswer, (hall _).1⟩

end Tunnel

end LzcSdk.RemoteSocks.RemoteNetstack
