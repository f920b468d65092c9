import LzcSdk.Error
import LzcSdk.Net

/-!
# The service address

`query_service_address` asks the kernel which of its addresses it would send from to the host of the applications. It
resolves the name of the host and probes the addresses one after another (`queryServiceAddressFrom`): a UDP socket of
the same family is bound and connected, and its local address is the answer (`sourceAddressFor`). The kernel is a
parameter, with whatever state it keeps.

**The first address with a route decides** (`service_address_exact`): the addresses before it were all probed and
refused, none behind it is probed, and when all are refused the error is the last refusal. Every socket is bound to the
unspecified address of the family of its candidate and connected to it, and nothing else is asked of the kernel.
-/

namespace LzcSdk

open ByteIo (IoError)
open Outcome

def SERVICE_HOST : String := "host.lzcapp"
def ROUTE_PROBE_PORT : UInt16 := 9

/-! ## Trying one address after another -/

section Candidates

variable {τ : Type} (sourceAddress : SocketAddr → τ → Except IoError IpAddr × τ)

/-- Try the candidates until one has a source address; `lastError` is the last failure so far. -/
def queryServiceAddressFrom : List SocketAddr → Option IoError → τ → Outcome SdkError IpAddr × τ
  | [], lastError, w => (err (.serviceAddressNoRoute lastError), w)
  | candidate :: candidates, _, w =>
    match sourceAddress candidate w with
    | (.ok address, w) => (ok address, w)
    | (.error error, w) => queryServiceAddressFrom candidates (some error) w

/-- All of some candidates fail, one after another; the last failure before and after. -/
inductive Fails : Option IoError → τ → List SocketAddr → Option IoError → τ → Prop where
  | nil {lastError : Option IoError} {w : τ} : Fails lastError w [] lastError w
  | cons {lastError lastError' : Option IoError} {w w₁ w' : τ} {c : SocketAddr} {cs : List SocketAddr} {e : IoError}
    (h : sourceAddress c w = (.error e, w₁)) (hs : Fails (some e) w₁ cs lastError' w') :
    Fails lastError w (c :: cs) lastError' w'

variable {sourceAddress} {candidates : List SocketAddr} {lastError : Option IoError} {w w' : τ}

/-- The candidates before the first one with a source address fail, or all of them do. -/
theorem queryServiceAddressFrom_cases {o : Outcome SdkError IpAddr}
    (h : queryServiceAddressFrom sourceAddress candidates lastError w = (o, w')) :
    (∃ last, Fails sourceAddress lastError w candidates last w' ∧ o = err (.serviceAddressNoRoute last)) ∨
    ∃ before c after last w₁ a, candidates = before ++ c :: after ∧
      Fails sourceAddress lastError w before last w₁ ∧ sourceAddress c w₁ = (.ok a, w') ∧ o = ok a := by
  induction candidates generalizing lastError w with
  | nil =>
    cases h
    exact .inl ⟨lastError, .nil, rfl⟩
  | cons c cs ih =>
    rw [queryServiceAddressFrom] at h
    match hc : sourceAddress c w with
    | (.ok a, w₁) =>
      rw [hc] at h
      cases h
      exact .inr ⟨[], c, cs, lastError, w, a, rfl, .nil, hc, rfl⟩
    | (.error e, w₁) =>
      rw [hc] at h
      rcases ih h with ⟨last, hfails, ho⟩ | ⟨before, c', after, last, w₂, a, rfl, hfails, hc', ho⟩
      · exact .inl ⟨last, .cons hc hfails, ho⟩
      · exact .inr ⟨c :: before, c', after, last, w₂, a, rfl, .cons hc hfails, hc', ho⟩

end Candidates

/-! ## Probing a route -/

/-- What was asked of the kernel, and its answer. -/
inductive SocketEvent where
  | bind (address : SocketAddr) (answer : Except IoError Unit)
  | connect (candidate : SocketAddr) (answer : Except IoError Unit)
  | localAddr (answer : Except IoError SocketAddr)

/-- A kernel: its answer to each call, and its state after it. -/
structure Kernel (σ : Type) where
  bind : SocketAddr → σ → Except IoError Unit × σ
  connect : SocketAddr → σ → Except IoError Unit × σ
  localAddr : σ → Except IoError SocketAddr × σ

/-- The unspecified address of the same family. -/
def unspecifiedBindAddress : SocketAddr → SocketAddr
  | .v4 _ _ => SocketAddr.new (.v4 (Ipv4Addr.new 0 0 0 0)) 0
  | .v6 _ _ _ _ => SocketAddr.new (.v6 ⟨Vector.replicate 16 0⟩) 0

section Probe

variable {σ : Type} (k : Kernel σ)

/-- The source address for a candidate; what is asked of the kernel goes to the end of the trace. -/
def sourceAddressFor (candidate : SocketAddr) (s : List SocketEvent × σ) :
    Except IoError IpAddr × (List SocketEvent × σ) :=
  let (bound, w) := k.bind (unspecifiedBindAddress candidate) s.2
  let trace := s.1 ++ [.bind (unspecifiedBindAddress candidate) bound]
  match bound with
  | .error e => (.error e, trace, w)
  | .ok () =>
    let (connected, w) := k.connect candidate w
    let trace := trace ++ [.connect candidate connected]
    match connected with
    | .error e => (.error e, trace, w)
    | .ok () =>
      let (localAddr, w) := k.localAddr w
      (localAddr.map SocketAddr.ip, trace ++ [.localAddr localAddr], w)

/-- The source address for the host of the applications. -/
def queryServiceAddress (lookupHost : String → UInt16 → Except IoError (List SocketAddr)) (w : σ) :
    Outcome SdkError IpAddr × (List SocketEvent × σ) :=
  match lookupHost SERVICE_HOST ROUTE_PROBE_PORT with
  | .error source => (err (.serviceAddressLookup source), [], w)
  | .ok candidates => queryServiceAddressFrom (sourceAddressFor k) candidates none ([], w)

/-- The kernel refused a candidate, at the first call that it did not do. -/
inductive Refused (candidate : SocketAddr) (e : IoError) : List SocketEvent → Prop where
  | bind : Refused candidate e [.bind (unspecifiedBindAddress candidate) (.error e)]
  | connect : Refused candidate e [.bind (unspecifiedBindAddress candidate) (.ok ()), .connect candidate (.error e)]
  | localAddr : Refused candidate e
    [.bind (unspecifiedBindAddress candidate) (.ok ()), .connect candidate (.ok ()), .localAddr (.error e)]

/-- The kernel has a route to a candidate, and sends from an address. -/
def routed (candidate address : SocketAddr) : List SocketEvent :=
  [.bind (unspecifiedBindAddress candidate) (.ok ()), .connect candidate (.ok ()), .localAddr (.ok address)]

/-- The kernel refused some candidates one after another; the last refusal. -/
inductive Refusals : List SocketAddr → List SocketEvent → Option IoError → Prop where
  | nil : Refusals [] [] none
  | snoc {cs : List SocketAddr} {c : SocketAddr} {trace part : List SocketEvent} {last : Option IoError} {e : IoError}
    (hs : Refusals cs trace last) (h : Refused c e part) : Refusals (cs ++ [c]) (trace ++ part) (some e)

variable {k} {w w' : σ} {candidate : SocketAddr} {trace trace' : List SocketEvent}

/-- The kernel refuses the candidate of a probe, or it has a route, and the probe the local address. -/
theorem probe_cases {r : Except IoError IpAddr} (h : sourceAddressFor k candidate (trace, w) = (r, trace', w')) :
    (∃ e part, r = .error e ∧ trace' = trace ++ part ∧ Refused candidate e part) ∨
    ∃ address : SocketAddr, r = .ok address.ip ∧ trace' = trace ++ routed candidate address := by
  unfold sourceAddressFor at h
  dsimp only at h
  split at h
  · rename_i hbound
    cases h
    exact .inl ⟨_, _, rfl, by rw [hbound], .bind⟩
  · rename_i hbound
    split at h
    · rename_i hconnected
      cases h
      exact .inl ⟨_, _, rfl, by rw [hbound, hconnected, List.append_assoc]; rfl, .connect⟩
    · rename_i hconnected
      obtain ⟨rfl, hrest⟩ := Prod.mk.inj h
      obtain ⟨rfl, -⟩ := Prod.mk.inj hrest
      rw [hbound, hconnected, List.append_assoc, List.append_assoc]
      cases hlocal : (k.localAddr (k.connect candidate (k.bind (unspecifiedBindAddress candidate) w).2).2).1 with
      | error e => exact .inl ⟨e, _, rfl, rfl, .localAddr⟩
      | ok address => exact .inr ⟨address, rfl, rfl⟩

/-- Candidates that fail have been refused, in order. -/
theorem refusals_of_fails {before cs : List SocketAddr} {last last' : Option IoError}
    (hb : Refusals before trace last) (h : Fails (sourceAddressFor k) last (trace, w) cs last' (trace', w')) :
    Refusals (before ++ cs) trace' last' := by
  generalize hstart : (trace, w) = start at h
  generalize hend : (trace', w') = stop at h
  induction h generalizing before trace w with
  | nil =>
    obtain ⟨rfl, -⟩ := Prod.mk.inj (hend.trans hstart.symm)
    rwa [List.append_nil]
  | @cons _ _ _ w₁ _ c cs e hc hs ih =>
    subst hstart
    obtain ⟨trace₁, w₁⟩ := w₁
    obtain ⟨e', part, he, rfl, hpart⟩ | ⟨address, he, -⟩ := probe_cases hc <;> cases he
    have hrest := ih (hb.snoc hpart) rfl hend
    rwa [List.append_assoc] at hrest

/-- There is no last refusal exactly where nothing was refused. -/
theorem Refusals.last_eq_none {cs : List SocketAddr} {last : Option IoError} (h : Refusals cs trace last) :
    last = none ↔ cs = [] := by
  cases h with
  | nil => exact ⟨fun _ => rfl, fun _ => rfl⟩
  | snoc hs h => exact ⟨nofun, fun hcs => absurd hcs (List.append_ne_nil_of_right_ne_nil _ (List.cons_ne_nil _ _))⟩

/-- A query that finds addresses probes them in order up to the first with a route, whose answer it is; when the kernel
refuses all of them it says the last refusal, which is none only where there is no address. -/
theorem service_address_exact (k : Kernel σ) (lookupHost : String → UInt16 → Except IoError (List SocketAddr))
    {candidates : List SocketAddr} (hlookup : lookupHost SERVICE_HOST ROUTE_PROBE_PORT = .ok candidates)
    {o : Outcome SdkError IpAddr} (h : queryServiceAddress k lookupHost w = (o, trace, w')) :
    (∃ before c after trace₁ last address, candidates = before ++ c :: after ∧ Refusals before trace₁ last ∧
      trace = trace₁ ++ routed c address ∧ o = ok address.ip) ∨
    ∃ last, Refusals candidates trace last ∧ o = err (.serviceAddressNoRoute last) ∧
      (last = none ↔ candidates = []) := by
  rw [queryServiceAddress, hlookup] at h
  rcases queryServiceAddressFrom_cases h with
    ⟨last, hfails, rfl⟩ | ⟨before, c, after, last, ⟨trace₁, w₁⟩, a, rfl, hfails, hc, rfl⟩
  · have hall : Refusals candidates trace last := refusals_of_fails .nil hfails
    exact .inr ⟨last, hall, rfl, hall.last_eq_none⟩
  · obtain ⟨e, part, he, -⟩ | ⟨address, he, rfl⟩ := probe_cases hc <;> cases he
    exact .inl ⟨before, c, after, trace₁, last, address, rfl, refusals_of_fails .nil hfails, rfl, rfl⟩

end Probe

/-- A kernel with a route to IPv6 addresses only: IPv4 ones are unreachable. -/
def ipv6Kernel : Kernel Unit where
  bind _ w := (.ok (), w)
  connect
    | .v4 _ _, w => (.error (.os 101), w)
    | .v6 _ _ _ _, w => (.ok (), w)
  localAddr w := (.ok (.v6 (Ipv4Addr.new 10 0 0 2).toIpv6Mapped 40000 0 0), w)

/-- The host has an IPv4 address and an IPv6 address: both are probed. -/
theorem service_address_exact_ipv6 :
    let host := SocketAddr.v4 (Ipv4Addr.new 192 0 2 1) 9
    let host6 := SocketAddr.v6 (Ipv4Addr.new 192 0 2 1).toIpv6Mapped 9 0 0
    ∃ before c after trace last address, [host, host6] = before ++ c :: after ∧ Refusals before trace last ∧
      (queryServiceAddress ipv6Kernel (fun _ _ => .ok [host, host6]) ()).2.1 = trace ++ routed c address ∧
      ok (IpAddr.v6 (Ipv4Addr.new 10 0 0 2).toIpv6Mapped) = (ok address.ip : Outcome SdkError IpAddr) := by
  intro host host6
  have h := service_address_exact ipv6Kernel (fun _ _ => .ok [host, host6]) rfl (w := ()) rfl
  exact h.resolve_right fun ⟨last, _, ho, _⟩ => nomatch ho

end LzcSdk
