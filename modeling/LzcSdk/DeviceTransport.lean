import LzcSdk.Credentials
import LzcSdk.Url

/-!
# Channels to a device

`connect_device_channel` takes the URL of a device API apart (`deviceEndpoint`): the channel goes to the host and the
port of the URL, and its TLS configuration names the host for the certificate. The URL parser and the gRPC transport are
parameters. **A channel goes where the URL says, under TLS, and names the host that it goes to** (`device_channel`),
whatever the scheme of the URL is; what is not an HTTP URL without user information opens none. **The URI of a channel
determines the name** (`deviceEndpoint_inj`).
-/

namespace LzcSdk

open Outcome

structure DeviceEndpoint where
  uri : String
  tlsServerName : String
  deriving DecidableEq, Repr

section Parse

variable (parse : String → Option Url)

def deviceEndpoint (apiUrl : String) : Outcome SdkError DeviceEndpoint := do
  let url ← okOr .invalidDeviceUrl (parse apiUrl)
  if ¬ (url.scheme = "http" ∨ url.scheme = "https") ∨ url.username ≠ "" ∨ url.password.isSome then
    err .invalidDeviceUrl
  else
    let host ← okOr .invalidDeviceUrl url.host
    let port ← okOr .invalidDeviceUrl url.portOrKnownDefault
    let (authorityHost, tlsServerName) :=
      match host with
      | .Ipv6 address => ("[" ++ String.ofList address.fmt ++ "]", String.ofList address.fmt)
      | .Ipv4 address => (String.ofList address.fmt, String.ofList address.fmt)
      | .Domain address => (address, address)
    return ⟨"https://" ++ (authorityHost ++ ":" ++ Nat.repr port.toNat), tlsServerName⟩

/-- Open a channel to a device; `connect` is the gRPC transport, for a URI and a TLS configuration. -/
def connectDeviceChannel {χ : Type} (connect : String → ClientTlsConfig → Outcome SdkError χ) (apiUrl : String)
    (credentials : CredentialMaterial) : Outcome SdkError χ := do
  let device ← deviceEndpoint parse apiUrl
  connect device.uri (credentials.tlsConfig device.tlsServerName)

/-- The URL is an HTTP scheme and a host, with a port or that of the scheme. -/
structure IsDeviceUrl (url : Url) (host : Host) (port : UInt16) : Prop where
  scheme : url.scheme = "http" ∨ url.scheme = "https"
  username : url.username = ""
  password : url.password = none
  host : url.host = some host
  port : url.portOrKnownDefault = some port

/-- The endpoint of a host and a port. -/
def DeviceEndpoint.ofHost (host : Host) (port : UInt16) : DeviceEndpoint :=
  ⟨"https://" ++ host.authority port, host.text⟩

/-- A URL of a scheme of the web has a host that is not empty. -/
def SpecialHosts : Prop :=
  ∀ value url, parse value = some url → url.scheme = "http" ∨ url.scheme = "https" → url.host ≠ some (.Domain "")

variable {parse} {value value' : String} {device device' : DeviceEndpoint}

theorem IsDeviceUrl.isPlain {url : Url} {host : Host} {port : UInt16} (h : IsDeviceUrl url host port)
    (hspecial : SpecialHosts parse) (hparse : parse value = some url) : host.IsPlain := by
  rintro domain rfl
  refine ⟨fun hnil => hspecial value url hparse h.scheme ?_, url.plain domain h.host⟩
  rw [h.host, hnil]

/-- **Exactly the HTTP URLs are taken**, each as the endpoint of its host and port. -/
theorem deviceEndpoint_eq_ok : deviceEndpoint parse value = ok device ↔
    ∃ url host port, parse value = some url ∧ IsDeviceUrl url host port ∧ device = .ofHost host port := by
  constructor
  · intro h
    obtain ⟨url, hurl, h⟩ := bind_eq_ok.1 h
    split at h
    · cases h
    · rename_i hextra
      obtain ⟨host, hhost, h⟩ := bind_eq_ok.1 h
      obtain ⟨port, hport, h⟩ := bind_eq_ok.1 h
      simp only [not_or, not_not, Bool.not_eq_true, Option.isSome_eq_false_iff, Option.isNone_iff_eq_none] at hextra
      obtain ⟨hscheme, husername, hpassword⟩ := hextra
      refine ⟨url, host, port, okOr_eq_ok.1 hurl, ?_, ?_⟩
      · exact ⟨Decidable.or_iff_not_not_and_not.2 hscheme, husername, hpassword, okOr_eq_ok.1 hhost, okOr_eq_ok.1 hport⟩
      · cases host <;> exact (ok.inj h).symm
  · rintro ⟨url, host, port, hparse, hurl, rfl⟩
    have hextra : ¬ (¬ (url.scheme = "http" ∨ url.scheme = "https") ∨ url.username ≠ "" ∨ url.password.isSome) := by
      simp [hurl.scheme, hurl.username, hurl.password]
    rw [deviceEndpoint, hparse, okOr_some, ok_bind, if_neg hextra, hurl.host, hurl.port]
    cases host <;> rfl

/-- Every other text fails with the same error. -/
theorem deviceEndpoint_eq_err (h : ∀ device, deviceEndpoint parse value ≠ ok device) :
    deviceEndpoint parse value = err .invalidDeviceUrl := by
  unfold deviceEndpoint at h ⊢
  cases hparse : parse value with
  | none => rfl
  | some url =>
    rw [hparse, okOr_some, ok_bind] at h
    rw [okOr_some, ok_bind]
    split
    · rfl
    · rename_i hextra
      rw [if_neg hextra] at h
      cases hhost : url.host with
      | none => rfl
      | some host =>
        cases hport : url.portOrKnownDefault with
        | none => rfl
        | some port =>
          rw [hhost, hport] at h
          exact absurd rfl (h _)

/-- **One URI has one name for the certificate.** -/
theorem deviceEndpoint_inj (hspecial : SpecialHosts parse) (h : deviceEndpoint parse value = ok device)
    (h' : deviceEndpoint parse value' = ok device') (huri : device.uri = device'.uri) : device = device' := by
  obtain ⟨url, host, port, hparse, hurl, rfl⟩ := deviceEndpoint_eq_ok.1 h
  obtain ⟨url', host', port', hparse', hurl', rfl⟩ := deviceEndpoint_eq_ok.1 h'
  have hauthority : host.authority port = host'.authority port' := by
    have hlist := congrArg String.toList huri
    simp only [DeviceEndpoint.ofHost, String.toList_append] at hlist
    exact String.toList_injective (List.append_cancel_left hlist)
  have htext := (Host.authority_inj (hurl.isPlain hspecial hparse) (hurl'.isPlain hspecial hparse') hauthority).1
  rw [DeviceEndpoint.ofHost, DeviceEndpoint.ofHost, hauthority, htext]

/-- **A channel goes where the URL says and names the host that it goes to.** For every text, either it is a URL of a
device, and the transport gets the identity of the application, the host and the port of the URL and the name of that
host; or the text is refused and the transport gets nothing. -/
theorem device_channel {χ : Type} (hspecial : SpecialHosts parse)
    (connect : String → ClientTlsConfig → Outcome SdkError χ) (value : String) (m : CredentialMaterial) :
    (∃ url host port, parse value = some url ∧ IsDeviceUrl url host port ∧
      connectDeviceChannel parse connect value m = connect ("https://" ++ host.authority port) (m.tlsConfig host.text) ∧
      toSocketAddrs (host.authority port) = some (host.target port) ∧
      hostToSocketAddrs host.text port = host.target port) ∨
    (¬ ∃ url host port, parse value = some url ∧ IsDeviceUrl url host port) ∧
      connectDeviceChannel parse connect value m = err .invalidDeviceUrl := by
  by_cases h : ∃ device, deviceEndpoint parse value = ok device
  · obtain ⟨device, h⟩ := h
    obtain ⟨url, host, port, hparse, hurl, rfl⟩ := deviceEndpoint_eq_ok.1 h
    have hplain : host.IsPlain := hurl.isPlain hspecial hparse
    refine .inl ⟨url, host, port, hparse, hurl, ?_,
      Host.toSocketAddrs_authority hplain, Host.hostToSocketAddrs_text hplain⟩
    rw [connectDeviceChannel, h]
    rfl
  · refine .inr ⟨?_, ?_⟩
    · rintro ⟨url, host, port, hparse, hurl⟩
      exact h ⟨.ofHost host port, deviceEndpoint_eq_ok.2 ⟨url, host, port, hparse, hurl, rfl⟩⟩
    · rw [connectDeviceChannel, deviceEndpoint_eq_err (not_exists.1 h)]
      rfl

/-- A parser for the URL of a device. -/
def parseDevice (value : String) : Option Url :=
  if value = "http://[::ffff:10.0.0.1]/api" then
    some ⟨"http", "", none, some (.Ipv6 (Ipv4Addr.new 10 0 0 1).toIpv6Mapped), none, "/api", none, none, nofun⟩
  else none

theorem specialHosts_device : SpecialHosts parseDevice := by
  intro value url hparse _ hhost
  unfold parseDevice at hparse
  split at hparse
  · cases hparse
    cases hhost
  · cases hparse

/-- An identity of an application, whose files are two bytes. -/
def deviceIdentity : CredentialMaterial := ⟨⟨[], [1], "app-123", .unsupported⟩, .runtime, [2]⟩

/-- A plain URL without a port opens a channel under TLS, to the port of its scheme. -/
theorem device_channel_ipv6 :
    connectDeviceChannel parseDevice (fun uri tls => ok (uri, tls.domainName)) "http://[::ffff:10.0.0.1]/api"
      deviceIdentity = ok ("https://[::ffff:10.0.0.1]:80", "::ffff:10.0.0.1") ∧
    ∃ url host port, parseDevice "http://[::ffff:10.0.0.1]/api" = some url ∧ IsDeviceUrl url host port ∧
      toSocketAddrs (host.authority port) = some (host.target port) ∧
      hostToSocketAddrs host.text port = host.target port := by
  have hok : connectDeviceChannel parseDevice (fun uri tls => ok (uri, tls.domainName)) "http://[::ffff:10.0.0.1]/api"
      deviceIdentity = ok ("https://[::ffff:10.0.0.1]:80", "::ffff:10.0.0.1") := by decide +kernel
  have h := device_channel specialHosts_device (fun uri tls => ok (uri, tls.domainName)) "http://[::ffff:10.0.0.1]/api"
    deviceIdentity
  refine ⟨hok, ?_⟩
  rcases h with ⟨url, host, port, hparse, hurl, -, htext, hhost⟩ | ⟨-, herr⟩
  · exact ⟨url, host, port, hparse, hurl, htext, hhost⟩
  · rw [hok] at herr
    cases herr

end Parse

end LzcSdk
