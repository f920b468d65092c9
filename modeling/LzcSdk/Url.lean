import LzcSdk.NetLookup

/-!
# URLs

What a URL parser gives for a text. The parser itself is a parameter of what is modelled: a partial function from texts
to `Url`. A domain has none of the code points that a host may not have, so a port can be put behind it.
-/

namespace LzcSdk

/-- The code points that a host may not have. -/
def FORBIDDEN_HOST : List Char :=
  [Char.ofNat 0, '\t', '\n', '\r', ' ', '#', '/', ':', '<', '>', '?', '@', '[', '\\', ']', '^', '|']

/-- The host of a URL. -/
inductive Host where
  | Domain (domain : String)
  | Ipv4 (address : Ipv4Addr)
  | Ipv6 (address : Ipv6Addr)
  deriving DecidableEq

/-- A URL that was parsed. -/
structure Url where
  scheme : String
  username : String
  password : Option String
  host : Option Host
  port : Option UInt16
  path : String
  query : Option String
  fragment : Option String
  plain : ∀ domain, host = some (.Domain domain) → ∀ c ∈ domain.toList, c ∉ FORBIDDEN_HOST

/-- The port of a scheme. -/
def defaultPort : String → Option UInt16
  | "http" | "ws" => some 80
  | "https" | "wss" => some 443
  | "ftp" => some 21
  | _ => none

/-- The port of a URL, or that of its scheme. -/
def Url.portOrKnownDefault (url : Url) : Option UInt16 := url.port.or (defaultPort url.scheme)

namespace Host

/-- The host without brackets. -/
def text : Host → String
  | Domain domain => domain
  | Ipv4 address => String.ofList address.fmt
  | Ipv6 address => String.ofList address.fmt

def isIpv6 : Host → Bool
  | Ipv6 _ => true
  | _ => false

/-- The host as it stands in front of a port: an IPv6 address in brackets. -/
def bracketed : Host → String
  | Ipv6 address => "[" ++ String.ofList address.fmt ++ "]"
  | host => host.text

/-- The host and a port. -/
def authority (host : Host) (port : UInt16) : String := host.bracketed ++ ":" ++ Nat.repr port.toNat

/-- Where a host with a port is: a domain may be an IPv4 address. -/
def target (host : Host) (port : UInt16) : Target :=
  match host with
  | Domain domain =>
    match Ipv4Addr.fromStr domain with
    | some ip => .addr (.v4 ip port)
    | none => .lookup domain port
  | Ipv4 address => .addr (.v4 address port)
  | Ipv6 address => .addr (.v6 address port 0 0)

/-- A domain that is not empty and has no forbidden code point. -/
def IsPlain (host : Host) : Prop :=
  ∀ domain, host = .Domain domain → domain ≠ "" ∧ ∀ c ∈ domain.toList, c ∉ FORBIDDEN_HOST

section Plain

variable {host host' : Host} {port port' : UInt16} {domain : String}

theorem IsPlain.colon (h : (Domain domain).IsPlain) : ':' ∉ domain.toList := fun hmem =>
  (h domain rfl).2 ':' hmem (by decide)

theorem IsPlain.head (h : (Domain domain).IsPlain) : domain.toList.head? ≠ some '[' := fun hhead =>
  (h domain rfl).2 '[' (List.mem_of_head? hhead) (by decide)

theorem target_domain (h : (Domain domain).IsPlain) (port : UInt16) :
    hostToSocketAddrs domain port = (Domain domain).target port := by
  simp only [hostToSocketAddrs, Ipv6Addr.fromStr_eq_none h.colon, target]
  cases Ipv4Addr.fromStr domain <;> rfl

/-- The host without brackets and the port are where the URL says. -/
theorem hostToSocketAddrs_text (h : host.IsPlain) : hostToSocketAddrs host.text port = host.target port := by
  cases host with
  | Domain domain => exact target_domain h port
  | Ipv4 ip => exact hostToSocketAddrs_ipv4 ip port
  | Ipv6 ip => exact hostToSocketAddrs_ipv6 ip port

theorem authority_ipv6 (ip : Ipv6Addr) (port : UInt16) : (Ipv6 ip).authority port =
    (SocketAddr.v6 ip port 0 0).toText :=
  String.toList_injective (by simp [authority, bracketed, SocketAddr.toText, SocketAddr.fmt])

theorem head_fmt_ipv4 (ip : Ipv4Addr) : (String.ofList ip.fmt).toList.head? ≠ some '[' := by
  rw [String.toList_ofList]
  intro h
  rcases mem_fmt (List.mem_of_head? h) with ⟨d, hd, hbracket⟩ | hbracket
  · have hdigit : ∀ d < 10, '[' ≠ Nat.digitChar d := by decide
    exact hdigit d hd hbracket
  · exact absurd hbracket (by decide)

/-- **The authority is where the URL says.** -/
theorem toSocketAddrs_authority (h : host.IsPlain) : toSocketAddrs (host.authority port) = some (host.target port) := by
  cases host with
  | Domain domain =>
    rw [← target_domain h]
    exact toSocketAddrs_host (h domain rfl).1 h.colon h.head
  | Ipv4 ip =>
    have hne : String.ofList ip.fmt ≠ "" := by
      intro hnil
      have hlist := congrArg String.toList hnil
      rw [String.toList_ofList] at hlist
      simp [Ipv4Addr.fmt] at hlist
    have hcolon : ':' ∉ (String.ofList ip.fmt).toList := by
      rw [String.toList_ofList]
      exact fun hmem => (ascii_of_mem_fmt hmem).2 rfl
    have htarget : (Ipv4 ip).target port = hostToSocketAddrs (String.ofList ip.fmt) port :=
      (hostToSocketAddrs_ipv4 ip port).symm
    rw [htarget]
    exact toSocketAddrs_host hne hcolon (head_fmt_ipv4 ip)
  | Ipv6 ip =>
    rw [authority_ipv6]
    exact toSocketAddrs_ipv6 ip port

/-! ## Two hosts with one authority -/

/-- A bracket tells an IPv6 address. -/
theorem head_bracketed (h : host.IsPlain) : host.bracketed.toList.head? = some '[' ↔ ∃ ip, host = .Ipv6 ip := by
  cases host with
  | Domain domain => simpa [bracketed, text] using h.head
  | Ipv4 ip => simpa [bracketed, text] using head_fmt_ipv4 ip
  | Ipv6 ip => simp [bracketed]

theorem text_of_bracketed (h : host.IsPlain) (h' : host'.IsPlain) (heq : host.bracketed = host'.bracketed) :
    host.text = host'.text := by
  have hhead := head_bracketed h
  rw [heq, head_bracketed h'] at hhead
  by_cases hip : ∃ ip, host = .Ipv6 ip
  · obtain ⟨ip', rfl⟩ := hhead.2 hip
    obtain ⟨ip, rfl⟩ := hip
    have hlist := congrArg String.toList heq
    simp only [bracketed, String.toList_append, String.toList_ofList] at hlist
    rw [text, text, List.append_cancel_left (List.append_cancel_right hlist)]
  · have hplain : ∀ x : Host, (¬ ∃ ip, x = .Ipv6 ip) → x.bracketed = x.text := by
      intro x hx
      cases x with
      | Ipv6 ip => exact absurd ⟨ip, rfl⟩ hx
      | _ => rfl
    rw [← hplain host hip, heq, hplain host' fun h' => hip (hhead.1 h')]

/-- Equal authorities have the same host and port. -/
theorem authority_inj (h : host.IsPlain) (h' : host'.IsPlain) (heq : host.authority port = host'.authority port') :
    host.text = host'.text ∧ port = port' := by
  have hsplit := rsplitOnce_hostPort host.bracketed port
  have heq' : host.bracketed ++ ":" ++ Nat.repr port.toNat = host'.bracketed ++ ":" ++ Nat.repr port'.toNat := heq
  rw [heq', rsplitOnce_hostPort] at hsplit
  obtain ⟨hhost, hport⟩ := Prod.mk.inj (Option.some.inj hsplit)
  have hparse := parseU16_port port
  rw [← hport, parseU16_port] at hparse
  exact ⟨text_of_bracketed h h' hhost.symm, (Option.some.inj hparse).symm⟩

end Plain

end Host

end LzcSdk
