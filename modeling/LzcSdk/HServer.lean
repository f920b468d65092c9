import LzcSdk.RemoteSocks.Netstack
import LzcSdk.Url

/-!
# The portal's SOCKS endpoint

`HPortalSys` answers a request for a location with a URL, and the client takes it as an endpoint when it is
`socks5://host:port` or `socks5h://host:port` and nothing more. **The endpoint is dialled where the URL says**
(`endpoint_dials`): its authority, and its host with its port, are the host and the port of the URL. **Its text
determines it** (`toText_inj`).
-/

namespace LzcSdk

/-- Physical network location where `HPortalSys` should expose `RemoteSocks`. -/
inductive RemoteLocation where
  | Local
  | Remote (target : String)
  deriving DecidableEq, Repr

/-- `From<&str>` and `From<String>`: the empty target is the local one. -/
def RemoteLocation.fromTarget (target : String) : RemoteLocation := if target = "" then .Local else .Remote target

/-- `remote_socks_request::LocationType`. -/
inductive LocationType where
  | Unkonwn
  | Local
  | Remote
  deriving DecidableEq, Repr

structure RemoteSocksRequest where
  locationType : LocationType
  target : String
  deriving DecidableEq, Repr

structure RemoteSocksReply where
  serverUrl : String
  deriving DecidableEq, Repr

/-- The request of `remote_socks_endpoint`. -/
def RemoteLocation.request : RemoteLocation → RemoteSocksRequest
  | Local => ⟨.Local, ""⟩
  | Remote target => ⟨.Remote, target⟩

namespace RemoteSocks

namespace RemoteSocksEndpoint

section Parse

variable (parse : String → Option Url)

/-- The two schemes; `socks5h` leaves names to the proxy. -/
def schemeOf : String → Option Bool
  | "socks5" => some false
  | "socks5h" => some true
  | _ => none

/-- The text of a host, and whether it is an IPv6 address. -/
def hostOf : Option Host → Option (String × Bool)
  | some (.Domain host) => if host ≠ "" then some (host, false) else none
  | some (.Ipv4 host) => some (String.ofList host.fmt, false)
  | some (.Ipv6 host) => some (String.ofList host.fmt, true)
  | none => none

/-- `from_str`: every step that fails does so with the same error. -/
def fromStr (value : String) : Except Error RemoteSocksEndpoint :=
  let endpoint : Option RemoteSocksEndpoint := do
    let url ← parse value
    let resolvesHostnameRemotely ← schemeOf url.scheme
    if url.username ≠ "" ∨ url.password.isSome ∨ ¬ (url.path = "" ∨ url.path = "/") ∨ url.query.isSome ∨
        url.fragment.isSome then none
    else
      let (host, ipv6) ← hostOf url.host
      let port ← url.port
      let authority :=
        if ipv6 then "[" ++ host ++ "]" ++ ":" ++ Nat.repr port.toNat else host ++ ":" ++ Nat.repr port.toNat
      return ⟨host, port, authority, resolvesHostnameRemotely⟩
  match endpoint with
  | some endpoint => .ok endpoint
  | none => .error .invalidRemoteSocksEndpoint

/-- `Display`. -/
def toText (endpoint : RemoteSocksEndpoint) : String :=
  (if endpoint.resolvesHostnameRemotely then "socks5h" else "socks5") ++ "://" ++ endpoint.authority

/-- The URL is a SOCKS scheme, a host and a port. -/
structure IsSocksUrl (url : Url) (remote : Bool) (host : Host) (port : UInt16) : Prop where
  scheme : url.scheme = if remote then "socks5h" else "socks5"
  username : url.username = ""
  password : url.password = none
  path : url.path = "" ∨ url.path = "/"
  query : url.query = none
  fragment : url.fragment = none
  nonempty : host ≠ .Domain ""
  host : url.host = some host
  port : url.port = some port

/-- The endpoint of a host and a port. -/
def ofHost (remote : Bool) (host : Host) (port : UInt16) : RemoteSocksEndpoint :=
  ⟨host.text, port, host.authority port, remote⟩

variable {parse} {value value' : String} {endpoint endpoint' : RemoteSocksEndpoint}

theorem IsSocksUrl.isPlain {url : Url} {remote : Bool} {host : Host} {port : UInt16}
    (h : IsSocksUrl url remote host port) :
    host.IsPlain := by
  rintro domain rfl
  exact ⟨fun hnil => h.nonempty (congrArg Host.Domain hnil), url.plain domain h.host⟩

theorem schemeOf_eq_some {scheme : String} {remote : Bool} :
    schemeOf scheme = some remote ↔ scheme = if remote then "socks5h" else "socks5" := by
  unfold schemeOf
  split
  · cases remote <;> simp
  · cases remote <;> simp
  · rename_i hsocks5 hsocks5h
    cases remote
    · simpa using hsocks5
    · simpa using hsocks5h

theorem hostOf_eq_some {host : Option Host} {x : String × Bool} : hostOf host = some x ↔
    ∃ h, host = some h ∧ h ≠ .Domain "" ∧ x = (h.text, h.isIpv6) := by
  rcases host with _ | domain | ip | ip
  · simp [hostOf]
  · simp [hostOf, Host.text, Host.isIpv6, eq_comm]
  · simp [hostOf, Host.text, Host.isIpv6, eq_comm]
  · simp [hostOf, Host.text, Host.isIpv6, eq_comm]

theorem authority_eq (host : Host) (port : UInt16) : host.authority port =
    if host.isIpv6 then "[" ++ host.text ++ "]" ++ ":" ++ Nat.repr port.toNat
    else host.text ++ ":" ++ Nat.repr port.toNat := by
  cases host <;> rfl

/-- **Exactly the SOCKS URLs are taken**, each as the endpoint of its host and port. -/
theorem fromStr_eq_ok : fromStr parse value = .ok endpoint ↔
    ∃ url remote host port, parse value = some url ∧ IsSocksUrl url remote host port ∧
      endpoint = ofHost remote host port := by
  have hoption : ∀ x : Option RemoteSocksEndpoint,
      (match x with
        | some endpoint => Except.ok endpoint
        | none => .error Error.invalidRemoteSocksEndpoint) = .ok endpoint ↔ x = some endpoint := by
    rintro (_ | x) <;> simp
  unfold fromStr
  rw [hoption]
  simp only [Option.bind_eq_bind, Option.bind_eq_some_iff, Option.ite_none_left_eq_some, Option.pure_def,
    Option.some.injEq, schemeOf_eq_some, hostOf_eq_some]
  constructor
  · rintro ⟨url, hparse, remote, hscheme, hextra, x, ⟨host, hhost, hne, rfl⟩, port, hport, rfl⟩
    simp only [not_or, not_not, Bool.not_eq_true, Option.isSome_eq_false_iff, Option.isNone_iff_eq_none] at hextra
    obtain ⟨husername, hpassword, hpath, hquery, hfragment⟩ := hextra
    refine ⟨url, remote, host, port, hparse, ?_, ?_⟩
    · exact ⟨hscheme, husername, hpassword, Decidable.or_iff_not_not_and_not.2 hpath, hquery, hfragment,
      hne, hhost, hport⟩
    · rw [ofHost, authority_eq]
  · rintro ⟨url, remote, host, port, hparse, hurl, rfl⟩
    refine ⟨url, hparse, remote, hurl.scheme, ?_, _, ⟨host, hurl.host, hurl.nonempty, rfl⟩, port, hurl.port, ?_⟩
    · simp [hurl.username, hurl.password, hurl.path, hurl.query, hurl.fragment]
    · rw [ofHost, authority_eq]

/-- **The endpoint is dialled where the URL says.** The authority, and the host with the port, are the host and the port
of a SOCKS URL. -/
theorem endpoint_dials (h : fromStr parse value = .ok endpoint) : ∃ url host, parse value = some url ∧
    IsSocksUrl url endpoint.resolvesHostnameRemotely host endpoint.port ∧
    toSocketAddrs endpoint.authority = some (host.target endpoint.port) ∧
    hostToSocketAddrs endpoint.host endpoint.port = host.target endpoint.port := by
  obtain ⟨url, remote, host, port, hparse, hurl, rfl⟩ := fromStr_eq_ok.1 h
  exact ⟨url, host, hparse, hurl, Host.toSocketAddrs_authority hurl.isPlain, Host.hostToSocketAddrs_text hurl.isPlain⟩

/-- The URL of a proxy at an address, with this path. -/
def proxyUrl (remote : Bool) (ip : Ipv6Addr) (path : String) : Url :=
  ⟨if remote then "socks5h" else "socks5", "", none, some (.Ipv6 ip), some 1080, path, none, none, nofun⟩

/-- A parser for two URLs of one proxy. -/
def parseProxy (value : String) : Option Url :=
  if value = "socks5h://[::ffff:10.0.0.1]:1080" then some (proxyUrl true (Ipv4Addr.new 10 0 0 1).toIpv6Mapped "")
  else if value = "socks5h://[::ffff:10.0.0.1]:1080/" then some (proxyUrl true (Ipv4Addr.new 10 0 0 1).toIpv6Mapped "/")
  else none

/-- A proxy at an IPv6 address is dialled there. -/
theorem endpoint_dials_ipv6 : ∃ url host, parseProxy "socks5h://[::ffff:10.0.0.1]:1080" = some url ∧
    IsSocksUrl url true host 1080 ∧ toSocketAddrs "[::ffff:10.0.0.1]:1080" = some (host.target 1080) ∧
    hostToSocketAddrs "::ffff:10.0.0.1" 1080 = host.target 1080 := by
  have h : fromStr parseProxy "socks5h://[::ffff:10.0.0.1]:1080" =
      .ok ⟨"::ffff:10.0.0.1", 1080, "[::ffff:10.0.0.1]:1080", true⟩ := by decide +kernel
  exact endpoint_dials h

/-- **The text of an endpoint determines it.** -/
theorem toText_inj (h : fromStr parse value = .ok endpoint) (h' : fromStr parse value' = .ok endpoint')
    (htext : endpoint.toText = endpoint'.toText) : endpoint = endpoint' := by
  obtain ⟨url, remote, host, port, -, hurl, rfl⟩ := fromStr_eq_ok.1 h
  obtain ⟨url', remote', host', port', -, hurl', rfl⟩ := fromStr_eq_ok.1 h'
  have hlist := congrArg String.toList htext
  have hremote : remote = remote' := by
    cases remote <;> cases remote' <;> simp [toText, ofHost] at hlist ⊢
  subst hremote
  have hauthority : host.authority port = host'.authority port' := by
    simp only [toText, ofHost, String.toList_append] at hlist
    exact String.toList_injective (List.append_cancel_left hlist)
  obtain ⟨hhost, rfl⟩ := Host.authority_inj hurl.isPlain hurl'.isPlain hauthority
  rw [ofHost, ofHost, hhost, hauthority]

/-- A URL with the path `/` is the same endpoint. -/
theorem toText_inj_slash : ∃ endpoint endpoint', fromStr parseProxy "socks5h://[::ffff:10.0.0.1]:1080" = .ok endpoint ∧
    fromStr parseProxy "socks5h://[::ffff:10.0.0.1]:1080/" = .ok endpoint' ∧ endpoint = endpoint' := by
  have h : fromStr parseProxy "socks5h://[::ffff:10.0.0.1]:1080" =
      .ok ⟨"::ffff:10.0.0.1", 1080, "[::ffff:10.0.0.1]:1080", true⟩ := by decide +kernel
  have h' : fromStr parseProxy "socks5h://[::ffff:10.0.0.1]:1080/" =
      .ok ⟨"::ffff:10.0.0.1", 1080, "[::ffff:10.0.0.1]:1080", true⟩ := by decide +kernel
  exact ⟨_, _, h, h', toText_inj h h' rfl⟩

end Parse

end RemoteSocksEndpoint

end RemoteSocks

end LzcSdk
