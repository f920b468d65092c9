import LzcSdk.RemoteSocks.AssociationTraffic
import LzcSdk.RemoteSocks.FramedSession

/-!
# Associated sessions

**An associated session talks to its target through the relay that the proxy named** (`associated_session`). The proxy
is told the offer and the command for the unspecified address, and nothing else; and in every run of the calls on the
socket, a `send` that returned `Ok` handed over one datagram, to the target, and a `recv` that returned a datagram has
it from the relay, which had it from the target.
-/

namespace LzcSdk.RemoteSocks.RemoteNetstack

open Outcome ByteIo Lts History

section Associate

variable {performCommand : UInt8 → SocksAddress → Outcome Error (SocksAddress × Socket)}
  {lookupHost : String → UInt16 → Outcome Error (List SocketAddr)} {b64 : Base64.Engine}
  {bind : SocketAddr → Outcome Error SocketAddr} {target : SocksAddress} {sock : AssociatedSocket}
  {as : List Action} {s : State} {t : Nat}

/-- A `send` goes to the fixed peer. -/
theorem target_of_prepare_send {a : Association} {payload payload' : List UInt8} {target' : SocksAddress}
    (hpeer : a.peerAddr = some target) (h : a.prepare (.send (.send payload)) = ok (.send payload' target')) :
    payload' = payload ∧ target' = target := by
  obtain ⟨peer, hsome, h⟩ := bind_eq_ok.1 h
  rw [hpeer] at hsome
  cases hsome
  exact Association.eq_of_prepare_sendTo (a := a) h

/-- The address of an ASSOCIATE command. -/
def unspecified : SocksAddress := .Ip (.v4 (Ipv4Addr.new 0 0 0 0) 0)

/-- **An associated session talks to its target through the relay that the proxy named.** The command `t` of a run is
the one that `udp_associate` performed, and `dialled` is the connection that the network gave to its last dial. The
relay is the address of the proxy's reply on this connection, or the first address of its name; the control stream has
carried the handshake and nothing else, and still holds what the proxy sent behind the reply. In every run of the calls
on the socket, a `send` that returned `Ok` handed over one datagram, with the target and its payload; and a `recv` that
returned a datagram took it from the relay last, and its source is the target. -/
theorem associated_session
    (hrun : Ended b64 as s t ⟨ASSOCIATE_COMMAND, unspecified⟩ (performCommand ASSOCIATE_COMMAND unspecified))
    (h : udpAssociate performCommand lookupHost b64 bind target = ok sock) :
    (∃ endpoint dialled w relay rest, (of (answered b64 as) t).getLast? = some (endpoint, .ok dialled) ∧
      performCommandWithDeadline b64 (ok dialled) ASSOCIATE_COMMAND unspecified = ok (relay, sock.control) ∧
      Exchanged b64 dialled sock.control ASSOCIATE_COMMAND unspecified relay [0x01, 0, 0, 0, 0, 0, 0] w rest ∧
      resolveSocketAddress lookupHost relay = ok sock.association.relay) ∧
    (∃ localAddr, bind (unspecifiedFor sock.association.relay) = ok localAddr ∧ sock.localAddr = .Ip localAddr) ∧
    ∀ calls s, run sock.association.step Association.init calls = some s → ∀ t,
      (∀ payload n, s.phase t = .finished (.send (.send payload)) (ok (.sent n)) →
        ∃ w, SocksAddress.encode b64 target = ok w ∧ n = payload.length ∧
          Association.handedOver (of (sock.association.traffic calls) t) = [[0, 0, 0] ++ w ++ payload]) ∧
      ∀ buffer r, s.phase t = .finished (.recv (.recv buffer)) (ok (.received r)) → r.source = target ∧
        ∃ skipped bytes payload,
          sock.association.relayed (of (sock.association.traffic calls) t) = skipped ++ [bytes] ∧
          datagramOf b64 (bytes.take MAX_UDP_PAYLOAD) = ok (target, payload) := by
  obtain ⟨relay, localAddr, hperform, hresolve, hbind, hlocal, hb64, hpeer⟩ := udpAssociate_eq_ok h
  refine ⟨?_, ⟨localAddr, hbind, hlocal⟩, ?_⟩
  · rw [unspecified, hperform] at hrun
    obtain ⟨endpoint, dialled, request, w, rest, -, hanswer, hcommand, hexchanged⟩ := exchanged_of_ended hrun
    have hrequest : request = [0x01, 0, 0, 0, 0, 0, 0] := Outcome.ok.inj hexchanged.encoded.symm
    exact ⟨endpoint, dialled, w, relay, rest, hanswer, hcommand, hrequest ▸ hexchanged, hresolve⟩
  · intro calls s hr t
    have hstory := Association.story_of_run hr t
    constructor
    · intro payload n hph
      rw [hph] at hstory
      obtain ⟨payload', target', w, hprep, hfits, rfl, hgiven⟩ := hstory.handedOver_of_sent
      obtain ⟨rfl, rfl⟩ := target_of_prepare_send hpeer hprep
      exact ⟨w, hb64 ▸ hfits.1, rfl, hgiven⟩
    · intro buffer r hph
      rw [hph] at hstory
      obtain ⟨hsource, skipped, bytes, payload, hrelayed, hd⟩ := hstory.source_of_received
      rw [hpeer] at hsource
      obtain rfl : r.source = target := Option.some.inj hsource
      exact ⟨rfl, skipped, bytes, payload, hrelayed, hb64 ▸ hd⟩

/-- The control stream of a command, behind a proxy that accepts and sends a byte. -/
def controlStream : Socket :=
  ⟨[[0xaa]], .eof, ⟨[0x05, 0x01, 0x00] ++ [0x05, ASSOCIATE_COMMAND, 0x00] ++ [0x01, 0, 0, 0, 0, 0, 0], none⟩⟩

/-- An association with a name server as its target. -/
theorem associated_session_nameServer :
    let performCommand := fun _ _ => ok (.Ip (.v4 (Ipv4Addr.new 10 0 0 1) 8080), controlStream)
    ∃ sock, udpAssociate performCommand (fun _ _ => ok []) Base64.standardNoPad
      (fun _ => ok (.v4 (Ipv4Addr.new 127 0 0 1) 5353)) nameServer = ok sock ∧
    ∃ endpoint dialled w relay rest,
      (of (answered Base64.standardNoPad (acceptedActions ⟨ASSOCIATE_COMMAND, unspecified⟩)) 0).getLast? =
        some (endpoint, .ok dialled) ∧
      Exchanged Base64.standardNoPad dialled sock.control ASSOCIATE_COMMAND unspecified relay [0x01, 0, 0, 0, 0, 0, 0]
        w rest ∧
      resolveSocketAddress (fun _ _ => ok []) relay = ok sock.association.relay := by
  intro performCommand
  have hrun : (run (step Base64.standardNoPad) init (acceptedActions ⟨ASSOCIATE_COMMAND, unspecified⟩)).isSome := rfl
  have hended : Ended Base64.standardNoPad (acceptedActions ⟨ASSOCIATE_COMMAND, unspecified⟩) (Option.get _ hrun) 0
      ⟨ASSOCIATE_COMMAND, unspecified⟩ (performCommand ASSOCIATE_COMMAND unspecified) :=
    ⟨along_acceptedActions _, (Option.some_get hrun).symm, rfl⟩
  obtain ⟨sock, hsock⟩ : ∃ sock, udpAssociate performCommand (fun _ _ => ok []) Base64.standardNoPad
      (fun _ => ok (.v4 (Ipv4Addr.new 127 0 0 1) 5353)) nameServer = ok sock := ⟨_, rfl⟩
  obtain ⟨⟨endpoint, dialled, w, relay, rest, hanswer, -, hexchanged, hresolve⟩, -⟩ := associated_session hended hsock
  exact ⟨sock, hsock, endpoint, dialled, w, relay, rest, hanswer, hexchanged, hresolve⟩

end Associate

end LzcSdk.RemoteSocks.RemoteNetstack
