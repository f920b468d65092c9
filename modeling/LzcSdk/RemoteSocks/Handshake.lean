import LzcSdk.RemoteSocks.AddressReader

/-!
# The handshake of a proxy command

On a dialled connection a command is an exchange: offer no authentication and check the answer
(`negotiateNoAuthentication`), send the command and its address, and read the reply (`readReply`). `exchange` is the
whole of it, one program over the byte stream; `performCommand` hands out the connection only when it returned.

**The handshake is exact** (`handshake_exact`): it succeeds on exactly the streams `05 00`, `05 00 00`, an address and
any rest, cut into segments in any way; then the rest is what the connection still holds, byte for byte, and the
command is what was sent. On every other stream it fails, and before the first two bytes are `05 00` only the offer
has been sent.
-/

namespace LzcSdk.RemoteSocks

open Outcome ByteIo

def CONNECT_COMMAND : UInt8 := 0x01
def BIND_COMMAND : UInt8 := 0x02
def ASSOCIATE_COMMAND : UInt8 := 0x03
def SOCKS_VERSION : UInt8 := 0x05
def NO_AUTHENTICATION : UInt8 := 0x00
def NO_ACCEPTABLE_AUTHENTICATION : UInt8 := 0xff

/-- Offer no authentication, and accept nothing else. -/
def negotiateNoAuthentication : Prog Error Unit := do
  Prog.writeAll [SOCKS_VERSION, 1, NO_AUTHENTICATION]
  let response ← Prog.readExact 2
  if response[0] ≠ SOCKS_VERSION then Prog.throw (.unexpectedSocksVersion response[0])
  else if response[1] = NO_AUTHENTICATION then return ()
  else if response[1] = NO_ACCEPTABLE_AUTHENTICATION then Prog.throw .socksNoAcceptableAuthentication
  else Prog.throw (.unsupportedSocksAuthentication response[1])

section Exchange

variable (b64 : Base64.Engine)

/-- Read the reply to a command and the address it carries. -/
def readReply : Prog Error SocksAddress := do
  let header ← Prog.readExact 3
  if header[0] ≠ SOCKS_VERSION then Prog.throw (.unexpectedSocksVersion header[0])
  else if header[2] ≠ 0 then Prog.throw (.invalidSocksReservedByte header[2])
  else if header[1] ≠ 0 then Prog.throw (.socksReply header[1])
  else SocksAddress.readFrom b64

/-- The exchange of one command on a dialled connection. -/
def exchange (command : UInt8) (address : SocksAddress) : Prog Error SocksAddress := do
  negotiateNoAuthentication
  Prog.writeAll [SOCKS_VERSION, command, 0]
  address.writeTo b64
  readReply b64

/-- Dial the proxy and perform a command; the connection is handed out with the address of the reply. -/
def performCommandWithDeadline (connectProxy : Outcome Error Socket) (command : UInt8) (address : SocksAddress) :
    Outcome Error (SocksAddress × Socket) := do
  let stream ← connectProxy
  match (exchange b64 command address).run stream with
  | (ok boundAddress, stream) => ok (boundAddress, stream)
  | (err e, _) => err e
  | (panicked, _) => panicked

/-- The same under the deadline; `elapsed` says that it fired. -/
def performCommand (elapsed : Bool) (connectProxy : Outcome Error Socket) (command : UInt8) (address : SocksAddress) :
    Outcome Error (SocksAddress × Socket) :=
  if elapsed then err .remoteSocksTimeout else performCommandWithDeadline b64 connectProxy command address

end Exchange

/-! ## The method reply -/

section Negotiate

variable {e : Ending} (sent : List UInt8)

/-- The bytes of the offer. -/
def offer : List UInt8 := [0x05, 0x01, 0x00]

/-- The negotiation after the two bytes of the answer. -/
theorem eval_negotiate_cons (version method : UInt8) (rest : List UInt8) :
    negotiateNoAuthentication.eval ⟨version :: method :: rest, e, ⟨sent, none⟩⟩ =
      Prog.eval
        (if version ≠ SOCKS_VERSION then Prog.throw (.unexpectedSocksVersion version)
        else if method = NO_AUTHENTICATION then .ret (ok ())
        else if method = NO_ACCEPTABLE_AUTHENTICATION then Prog.throw .socksNoAcceptableAuthentication
        else Prog.throw (.unsupportedSocksAuthentication method)) ⟨rest, e, ⟨sent ++ offer, none⟩⟩ := by
  simp only [negotiateNoAuthentication, Prog.writeAll_bind, Prog.readExact_bind, Prog.eval_write]
  exact Prog.eval_read_append #v[version, method] rest

/-- The negotiation accepts `05 00`. -/
theorem eval_negotiate_ok (rest : List UInt8) :
    negotiateNoAuthentication.eval ⟨0x05 :: 0x00 :: rest, e, ⟨sent, none⟩⟩ =
      (ok (), ⟨rest, e, ⟨sent ++ offer, none⟩⟩) := by
  rw [eval_negotiate_cons, if_neg (by decide), if_pos (by decide)]
  rfl

theorem eval_negotiate_short {input : List UInt8} (h : input.length < 2) :
    negotiateNoAuthentication.eval ⟨input, e, ⟨sent, none⟩⟩ =
      (err (fromIo e.error), ⟨[], e, ⟨sent ++ offer, none⟩⟩) := by
  simp only [negotiateNoAuthentication, Prog.writeAll_bind, Prog.readExact_bind, Prog.eval_write]
  exact Prog.eval_read_short h

/-- Any other answer fails the negotiation, with only the offer sent. -/
theorem eval_negotiate_err {input : List UInt8} (h : ∀ rest, input ≠ 0x05 :: 0x00 :: rest) :
    ∃ error rest, negotiateNoAuthentication.eval ⟨input, e, ⟨sent, none⟩⟩ =
      (err error, ⟨rest, e, ⟨sent ++ offer, none⟩⟩) := by
  match input, h with
  | [], _ => exact ⟨_, _, eval_negotiate_short sent (by decide)⟩
  | [_], _ => exact ⟨_, _, eval_negotiate_short sent (by simp)⟩
  | version :: method :: rest, h =>
    rw [eval_negotiate_cons]
    by_cases hv : version = SOCKS_VERSION
    · have hm : method ≠ NO_AUTHENTICATION := fun hm => h rest (by rw [hv, hm]; rfl)
      rw [if_neg (not_not.2 hv), if_neg hm]
      split <;> exact ⟨_, _, rfl⟩
    · rw [if_pos hv]
      exact ⟨_, _, rfl⟩

end Negotiate

/-! ## The reply -/

section Reply

variable (b64 : Base64.Engine) {e : Ending} {k : Sink}

/-- Reading the reply after the three bytes of its header. -/
theorem eval_readReply_cons (version reply reserved : UInt8) (rest : List UInt8) :
    (readReply b64).eval ⟨version :: reply :: reserved :: rest, e, k⟩ =
      Prog.eval
        (if version ≠ SOCKS_VERSION then Prog.throw (.unexpectedSocksVersion version)
        else if reserved ≠ 0 then Prog.throw (.invalidSocksReservedByte reserved)
        else if reply ≠ 0 then Prog.throw (.socksReply reply)
        else SocksAddress.readFrom b64) ⟨rest, e, k⟩ :=
  Prog.eval_read_append #v[version, reply, reserved] rest

/-- A successful reply ends with its address. -/
theorem eval_readReply_ok (rest : List UInt8) :
    (readReply b64).eval ⟨0x05 :: 0x00 :: 0x00 :: rest, e, k⟩ = (SocksAddress.readFrom b64).eval ⟨rest, e, k⟩ := by
  rw [eval_readReply_cons, if_neg (by decide), if_neg (by decide), if_neg (by decide)]

/-- Any other header is an error. -/
theorem eval_readReply_err {input : List UInt8} (h : ∀ rest, input ≠ 0x05 :: 0x00 :: 0x00 :: rest) :
    ∃ error rest, (readReply b64).eval ⟨input, e, k⟩ = (err error, ⟨rest, e, k⟩) := by
  match input, h with
  | [], _ => exact ⟨_, _, Prog.eval_read_short (by decide)⟩
  | [_], _ => exact ⟨_, _, Prog.eval_read_short (by simp)⟩
  | [_, _], _ => exact ⟨_, _, Prog.eval_read_short (by simp)⟩
  | version :: reply :: reserved :: rest, h =>
    rw [eval_readReply_cons]
    by_cases hv : version = SOCKS_VERSION
    · rw [if_neg (not_not.2 hv)]
      by_cases hz : reserved = 0
      · have hr : reply ≠ 0 := fun hr => h rest (by rw [hv, hz, hr]; rfl)
        rw [if_neg (not_not.2 hz), if_pos hr]
        exact ⟨_, _, rfl⟩
      · rw [if_pos hz]
        exact ⟨_, _, rfl⟩
    · rw [if_pos hv]
      exact ⟨_, _, rfl⟩

theorem eval_readReply_ne_panicked (input : List UInt8) : ((readReply b64).eval ⟨input, e, k⟩).1 ≠ panicked := by
  by_cases h : ∃ rest, input = 0x05 :: 0x00 :: 0x00 :: rest
  · obtain ⟨rest, rfl⟩ := h
    rw [eval_readReply_ok]
    exact eval_readFrom_ne_panicked b64 rest
  · obtain ⟨error, rest, he⟩ := eval_readReply_err b64 (e := e) (k := k) fun rest hr => h ⟨rest, hr⟩
    rw [he]
    simp

/-- Reading a reply writes nothing. -/
theorem eval_readReply_sink (input : List UInt8) : ((readReply b64).eval ⟨input, e, k⟩).2.sink = k := by
  by_cases h : ∃ rest, input = 0x05 :: 0x00 :: 0x00 :: rest
  · obtain ⟨rest, rfl⟩ := h
    rw [eval_readReply_ok]
    exact eval_readFrom_sink b64 rest
  · obtain ⟨error, rest, he⟩ := eval_readReply_err b64 (e := e) (k := k) fun rest hr => h ⟨rest, hr⟩
    rw [he]

/-- A reply that is read stood at the front of the stream. -/
theorem eval_readReply_eq_ok {input : List UInt8} {a : SocksAddress} {w : Wire}
    (h : (readReply b64).eval ⟨input, e, k⟩ = (ok a, w)) :
    ∃ wire rest, input = [0x05, 0x00, 0x00] ++ wire ++ rest ∧ SocksAddress.decode b64 wire = ok a ∧
      w = ⟨rest, e, k⟩ := by
  by_cases hin : ∃ rest, input = 0x05 :: 0x00 :: 0x00 :: rest
  · obtain ⟨field, rfl⟩ := hin
    rw [eval_readReply_ok] at h
    obtain ⟨wire, rest, rfl, ha⟩ := eval_readFrom_eq_ok b64 h
    rw [eval_readFrom_ok b64 ha] at h
    cases h
    exact ⟨wire, rest, rfl, ha, rfl⟩
  · obtain ⟨error, rest, he⟩ := eval_readReply_err b64 (e := e) (k := k) fun rest hr => hin ⟨rest, hr⟩
    rw [he] at h
    cases h

end Reply

/-! ## The exchange -/

section Exact

variable (b64 : Base64.Engine) {e : Ending} {command : UInt8} {address : SocksAddress} {request : List UInt8}

/-- The bytes of a successful exchange before the address of the reply. -/
def accepted : List UInt8 := [0x05, 0x00] ++ [0x05, 0x00, 0x00]

/-- After an accepted negotiation the command is sent and its reply read. -/
theorem eval_exchange_negotiated (h : SocksAddress.encode b64 address = ok request) (rest : List UInt8) :
    (exchange b64 command address).eval ⟨0x05 :: 0x00 :: rest, e, ⟨[], none⟩⟩ =
      (readReply b64).eval ⟨rest, e, ⟨offer ++ [0x05, command, 0x00] ++ request, none⟩⟩ := by
  rw [exchange, Prog.eval_bind, eval_negotiate_ok]
  simp only [SocksAddress.writeTo, h, List.nil_append, Prog.writeAll_bind, Prog.eval_write, Prog.ret_ok_bind]
  rfl

/-- Without an accepted negotiation only the offer is sent. -/
theorem eval_exchange_refused (command : UInt8) (address : SocksAddress) {input : List UInt8}
    (hin : ∀ rest, input ≠ 0x05 :: 0x00 :: rest) : ∃ error rest,
      (exchange b64 command address).eval ⟨input, e, ⟨[], none⟩⟩ = (err error, ⟨rest, e, ⟨offer, none⟩⟩) := by
  obtain ⟨error, rest, he⟩ := eval_negotiate_err (e := e) [] hin
  refine ⟨error, rest, ?_⟩
  rw [exchange, Prog.eval_bind, he]
  rfl

/-- The exchange takes the accepted bytes and the address, and nothing behind them. -/
theorem eval_exchange_ok (h : SocksAddress.encode b64 address = ok request) {wire : List UInt8} {b : SocksAddress}
    (hb : SocksAddress.decode b64 wire = ok b) (rest : List UInt8) :
    (exchange b64 command address).eval ⟨accepted ++ wire ++ rest, e, ⟨[], none⟩⟩ =
      (ok b, ⟨rest, e, ⟨offer ++ [0x05, command, 0x00] ++ request, none⟩⟩) := by
  rw [List.append_assoc]
  exact (eval_exchange_negotiated b64 h _).trans
    ((eval_readReply_ok b64 _).trans (eval_readFrom_ok b64 hb rest))

/-- An exchange that returns an address has read the accepted bytes and that address. -/
theorem eval_exchange_eq_ok (h : SocksAddress.encode b64 address = ok request) {input : List UInt8} {b : SocksAddress}
    {w : Wire} (hw : (exchange b64 command address).eval ⟨input, e, ⟨[], none⟩⟩ = (ok b, w)) :
    ∃ wire rest, input = accepted ++ wire ++ rest ∧ SocksAddress.decode b64 wire = ok b := by
  by_cases hin : ∃ rest, input = 0x05 :: 0x00 :: rest
  · obtain ⟨reply, rfl⟩ := hin
    rw [eval_exchange_negotiated b64 h] at hw
    by_cases hreply : ∃ rest, reply = 0x05 :: 0x00 :: 0x00 :: rest
    · obtain ⟨field, rfl⟩ := hreply
      rw [eval_readReply_ok] at hw
      obtain ⟨wire, rest, rfl, hb⟩ := eval_readFrom_eq_ok b64 hw
      exact ⟨wire, rest, rfl, hb⟩
    · obtain ⟨error, rest, he⟩ := eval_readReply_err b64 (e := e) (k := ⟨_, none⟩) fun rest hr => hreply ⟨rest, hr⟩
      rw [he] at hw
      cases hw
  · obtain ⟨error, rest, he⟩ := eval_exchange_refused b64 (e := e) command address fun rest hr => hin ⟨rest, hr⟩
    rw [he] at hw
    cases hw

/-- The address of an exchange that returns is one that has an encoding. -/
theorem encode_of_exchange {w w' : Wire} {b : SocksAddress}
    (hw : (exchange b64 command address).eval w = (ok b, w')) :
    ∃ request, SocksAddress.encode b64 address = ok request := by
  obtain ⟨_, w₁, _, hw⟩ := Prog.eval_bind_eq_ok hw
  obtain ⟨_, w₂, _, hw⟩ := Prog.eval_bind_eq_ok hw
  obtain ⟨_, w₃, hwrite, _⟩ := Prog.eval_bind_eq_ok hw
  obtain ⟨request, w₄, hencode, _⟩ := Prog.eval_bind_eq_ok hwrite
  exact ⟨request, (Prod.mk.inj hencode).1⟩

/-- An exchange sends a part of the offer and the request. -/
theorem sent_exchange_prefix (h : SocksAddress.encode b64 address = ok request) (input : List UInt8)
    (room : Option Nat) : ((exchange b64 command address).eval ⟨input, e, ⟨[], room⟩⟩).2.sink.sent <+:
      offer ++ [0x05, command, 0x00] ++ request := by
  refine (Prog.sent_prefix_unlimited _ _ _ _ room).trans ?_
  by_cases hin : ∃ rest, input = 0x05 :: 0x00 :: rest
  · obtain ⟨rest, rfl⟩ := hin
    have hall : ((exchange b64 command address).eval ⟨0x05 :: 0x00 :: rest, e, ⟨[], none⟩⟩).2.sink.sent =
        offer ++ [0x05, command, 0x00] ++ request := by
      rw [eval_exchange_negotiated b64 h, eval_readReply_sink]
    exact hall ▸ List.prefix_rfl
  · obtain ⟨error, rest, he⟩ := eval_exchange_refused b64 (e := e) command address fun rest hr => hin ⟨rest, hr⟩
    rw [he, List.append_assoc]
    exact List.prefix_append _ _

theorem eval_exchange_ne_panicked (h : SocksAddress.encode b64 address = ok request) (input : List UInt8) :
    ((exchange b64 command address).eval ⟨input, e, ⟨[], none⟩⟩).1 ≠ panicked := by
  by_cases hin : ∃ rest, input = 0x05 :: 0x00 :: rest
  · obtain ⟨reply, rfl⟩ := hin
    rw [eval_exchange_negotiated b64 h]
    exact eval_readReply_ne_panicked b64 reply
  · obtain ⟨error, rest, he⟩ := eval_exchange_refused b64 (e := e) command address fun rest hr => hin ⟨rest, hr⟩
    rw [he]
    simp

/-- A command on a dialled connection returns what its exchange returns. -/
theorem performCommand_dialled (stream : Socket) :
    performCommand b64 false (ok stream) command address =
      (((exchange b64 command address).run stream).1 >>= fun b =>
        ok (b, ((exchange b64 command address).run stream).2)) := by
  simp only [performCommand, performCommandWithDeadline, Bool.false_eq_true, if_false, ok_bind]
  rcases (exchange b64 command address).run stream with ⟨_ | _ | _, _⟩ <;> rfl

/-- The connection of a command is left as the exchange leaves its bytes. -/
theorem performCommand_of_eval {stream : Socket} {b : SocksAddress} {w : Wire}
    (hw : (exchange b64 command address).eval stream.flat = (ok b, w)) :
    ∃ stream', performCommand b64 false (ok stream) command address = ok (b, stream') ∧ stream'.flat = w := by
  refine ⟨((exchange b64 command address).run stream).2, ?_, ?_⟩
  · rw [performCommand_dialled, Prog.run_fst, hw, ok_bind]
  · rw [Prog.run_snd, hw]

/-- **The handshake is exact.** With the proxy's bytes cut into segments in any way: an address and a connection are
returned only for an accepted stream (1) and for each of them (2), with exactly the rest of the stream unread and
exactly the command sent; every other stream is an error (3); and a proxy that does not begin with `05 00` has seen
nothing but the offer (4). -/
theorem handshake_exact (command : UInt8) (address : SocksAddress) (request : List UInt8)
    (h : SocksAddress.encode b64 address = ok request) (segments : List (List UInt8)) (ending : Ending) :
    let dialled : Socket := ⟨segments, ending, ⟨[], none⟩⟩
    let sent : List UInt8 := [0x05, 0x01, 0x00] ++ [0x05, command, 0x00] ++ request
    (∀ b stream, performCommand b64 false (ok dialled) command address = ok (b, stream) →
      ∃ w rest, segments.flatten = [0x05, 0x00] ++ [0x05, 0x00, 0x00] ++ w ++ rest ∧
        SocksAddress.decode b64 w = ok b ∧ stream.flat = ⟨rest, ending, ⟨sent, none⟩⟩) ∧
    (∀ b w rest, segments.flatten = [0x05, 0x00] ++ [0x05, 0x00, 0x00] ++ w ++ rest →
      SocksAddress.decode b64 w = ok b →
      ∃ stream, performCommand b64 false (ok dialled) command address = ok (b, stream) ∧
        stream.flat = ⟨rest, ending, ⟨sent, none⟩⟩) ∧
    ((∀ b w rest, segments.flatten = [0x05, 0x00] ++ [0x05, 0x00, 0x00] ++ w ++ rest →
        SocksAddress.decode b64 w ≠ ok b) →
      ∃ error, performCommand b64 false (ok dialled) command address = err error) ∧
    (¬ [0x05, 0x00] <+: segments.flatten →
      ((exchange b64 command address).run dialled).2.sink.sent = [0x05, 0x01, 0x00]) := by
  intro dialled sent
  have hflat : dialled.flat = ⟨segments.flatten, ending, ⟨[], none⟩⟩ := rfl
  -- a returned address was read off an accepted stream
  have only : ∀ b stream, performCommand b64 false (ok dialled) command address = ok (b, stream) →
      ∃ w rest, segments.flatten = accepted ++ w ++ rest ∧ SocksAddress.decode b64 w = ok b ∧
        stream.flat = ⟨rest, ending, ⟨sent, none⟩⟩ := by
    intro b stream hp
    rw [performCommand_dialled, bind_ok_eq_ok] at hp
    obtain ⟨b', hfst, hpair⟩ := hp
    cases hpair
    rw [Prog.run_fst, hflat] at hfst
    obtain ⟨w, rest, hin, hb⟩ := eval_exchange_eq_ok b64 h (Prod.ext hfst rfl)
    refine ⟨w, rest, hin, hb, ?_⟩
    rw [Prog.run_snd, hflat, hin, eval_exchange_ok b64 h hb]
    rfl
  refine ⟨only, fun b w rest hin hb => ?_, fun hno => ?_, fun hpre => ?_⟩
  · exact performCommand_of_eval b64 (by rw [hflat, hin]; exact eval_exchange_ok b64 h hb rest)
  · apply isErr_of_ne
    · rintro ⟨b, stream⟩ hp
      obtain ⟨w, rest, hin, hb, _⟩ := only b stream hp
      exact hno b w rest hin hb
    · rw [performCommand_dialled, Ne, bind_eq_panicked]
      rintro (hp | ⟨b, -, hp⟩)
      · rw [Prog.run_fst, hflat] at hp
        exact eval_exchange_ne_panicked b64 h _ hp
      · cases hp
  · obtain ⟨error, rest, he⟩ := eval_exchange_refused b64 (e := ending) command address
      fun rest (hr : segments.flatten = _) => hpre ⟨rest, hr.symm⟩
    have hsnd := Prog.run_snd (exchange b64 command address) dialled
    rw [hflat, he] at hsnd
    exact congrArg (fun w => w.sink.sent) hsnd

/-- A reply in five segments, the last two with tunnelled bytes behind the address. -/
theorem handshake_exact_segmented :
    ∃ stream, performCommand Base64.standardNoPad false
        (ok ⟨[[0x05], [0x00, 0x05, 0x00], [0x00, 0x01, 10, 0], [0, 1, 0x1f, 0x90, 0xaa], [0xbb]], .eof, ⟨[], none⟩⟩)
        CONNECT_COMMAND (.Domain "example.com" 443) = ok (.Ip (.v4 (Ipv4Addr.new 10 0 0 1) 8080), stream) ∧
      stream.flat = ⟨[0xaa, 0xbb], .eof,
        ⟨[0x05, 0x01, 0x00, 0x05, 0x01, 0x00] ++ domainWire "example.com" 443, none⟩⟩ :=
  (handshake_exact Base64.standardNoPad CONNECT_COMMAND (.Domain "example.com" 443) (domainWire "example.com" 443)
    (by decide +kernel) _ .eof).2.1 _ [0x01, 10, 0, 0, 1, 0x1f, 0x90] [0xaa, 0xbb] (by decide) (by decide +kernel)

end Exact

end LzcSdk.RemoteSocks
