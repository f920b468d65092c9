import LzcSdk.Auth.TokenStory
import LzcSdk.Credentials
import LzcSdk.Lib.Base64

/-!
# The identity of an application

The identity that an application signs for a device, and the identity that a server takes from the certificate of its
peer (`peerApplication`), are both the serial number of a subject, read by two functions.

**They are the same one** (`identity_agrees`): for credentials that load, a server that is shown the certificates of
the application file takes them for the application exactly when there is one of them, and then reads the identity that
every token request of every run signs. With a key that cannot sign, no run asks the device for anything
(`unsigned_of_reachable`).
-/

namespace LzcSdk

open ByteIo (IoError)
open Outcome Lts History

/-! ## The application of a peer -/

/-- Identity encoded in a `LazyCat` application client certificate. -/
structure Application where
  appId : String
  boxId : String
  appDomain : String
  deriving DecidableEq, Repr

/-- The TLS extensions of a request: for each kind of connection the information about it, and there the certificates
of the peer. -/
structure Extensions where
  tcp : Option (Option (List CertificateDer))
  uds : Option (Option (List CertificateDer))

/-- The serial number attribute of a name. -/
def serialNumber (name : X509Name) : String := name.firstStr SERIAL_NUMBER

def applicationFromCertificates (k : Pki) (certificates : List CertificateDer) : Outcome SdkError Application := do
  if certificates.length ≠ 1 then err (.invalidPeerCertificateCount certificates.length)
  else
    let certificate ← index certificates 0
    let certificate ← okOr .invalidPeerCertificate (k.parseX509Certificate certificate)
    return ⟨serialNumber certificate.subject, serialNumber certificate.issuer, certificate.subject.firstStr COMMON_NAME⟩

/-- The application that sent a request. -/
def peerApplication (k : Pki) (extensions : Extensions) : Outcome SdkError Application := do
  let certificates := extensions.tcp.bind id
  let certificates := certificates.or (extensions.uds.bind id)
  let certificates ← okOr .unauthenticatedPeer certificates
  applicationFromCertificates k certificates

/-- The certificates that a server sees on a connection of a client. -/
def Extensions.Shows (extensions : Extensions) (chain : List CertificateDer) : Prop :=
  extensions.tcp = some (some chain) ∨ extensions.tcp.bind id = none ∧ extensions.uds = some (some chain)

section Peer

variable {k : Pki} {extensions : Extensions} {chain : List CertificateDer}

theorem peerApplication_of_shows (h : extensions.Shows chain) :
    peerApplication k extensions = applicationFromCertificates k chain := by
  rcases h with htcp | ⟨htcp, huds⟩
  · rw [peerApplication, htcp]
    rfl
  · rw [peerApplication, htcp, huds]
    rfl

/-- A peer with one certificate is the application of its subject, which its credentials hold. -/
theorem applicationFromCertificates_single {c : CertificateDer} {x : X509Certificate}
    (h : k.parseX509Certificate c = some x) : applicationFromCertificates k [c] =
      ok ⟨applicationSerialNumber k [c], serialNumber x.issuer, x.subject.firstStr COMMON_NAME⟩ := by
  have hserial : applicationSerialNumber k [c] = serialNumber x.subject := by
    simp only [applicationSerialNumber, List.head?_cons, h]
    rfl
  rw [hserial, applicationFromCertificates, if_neg (by simp), index_cons_zero, ok_bind, h]
  rfl

end Peer

/-! ## Signed requests -/

/-- A token request has the two files of the credentials and a signature. -/
theorem exists_signature {c : ClientCredentials} {request : RequestAuthTokenRequest}
    (h : c.authRequestMaterial = .ok request) : ∃ signature,
      c.signingKey.signature (Text.bytes c.applicationId) = .ok signature ∧
      request = ⟨c.boxCertificatePem, c.applicationCertificatePem, signature⟩ := by
  unfold ClientCredentials.authRequestMaterial at h
  cases hsignature : c.signingKey.signature (Text.bytes c.applicationId) with
  | error e =>
    rw [hsignature] at h
    cases h
  | ok signature =>
    rw [hsignature] at h
    cases h
    exact ⟨signature, rfl, rfl⟩

namespace TokenProvider

section Requests

variable {p : TokenProvider} {s : State} {t : Nat} {guard : State → Action → Prop} {systemNow : SystemTime}
  {instantNow : Instant}

/-- A call that asked the device sent what the credentials gave. -/
theorem authRequestMaterial_of_story {ph : Phase} {tr : List Event} {request : RequestAuthTokenRequest}
    (h : Story p ph tr) (hmem : .requested request ∈ tr) : p.credentials.authRequestMaterial = .ok request := by
  have acquires : ∀ {c k tr}, Acquires p c k tr → .requested request ∈ tr →
      p.credentials.authRequestMaterial = .ok request := by
    intro c k tr h hmem
    cases h with
    | served => simp at hmem
    | @obtained request' h =>
      have hsame : request = request' := by simpa using hmem
      exact hsame ▸ h
  induction h with
  | idle | waiting | unsigned => simp at hmem
  | @requesting c request' h | @failed c request' o h =>
    have hsame : request = request' := by simpa using hmem
    exact hsame ▸ h
  | returned h | unusable h => exact acquires h hmem
  | forwarding h | cancelled h _ ih =>
    rcases List.mem_append.1 hmem with hmem | hmem
    · first | exact acquires h hmem | exact ih hmem
    · simp at hmem
  | answered h ih => exact ih hmem

/-- Every request to the device is what the credentials give. -/
theorem request_of_reachable (h : Reachable (step p) guard (init systemNow instantNow) s)
    {request : RequestAuthTokenRequest} (hmem : (t, .requested request) ∈ s.log) :
    p.credentials.authRequestMaterial = .ok request :=
  authRequestMaterial_of_story ((inv_of_reachable h).story t) (mem_of.2 hmem)

end Requests

/-! ## A key that cannot sign -/

/-- Where a call is that nobody could sign for. -/
def Phase.Unsigned (e : Error) : Phase → Prop
  | idle => True
  | waiting _ => True
  | finished _ o => o = err e
  | cancelled => True
  | _ => False

/-- What such a call does. -/
def Event.Unsigned (e : Error) : Event → Prop
  | called _ => True
  | failed o => o = err e
  | dropped => True
  | _ => False

/-- Nobody has asked the device or has a token, and calls end with the error of signing. -/
structure Unsigned (e : Error) (s : State) : Prop where
  cached : s.cached = none
  phase : ∀ t, (s.phase t).Unsigned e
  log : ∀ x ∈ s.log, x.2.Unsigned e

section Unsigned

variable {p : TokenProvider} {e : Error} {s s' : State} {a : Action} {t : Nat} {guard : State → Action → Prop}
  {systemNow : SystemTime} {instantNow : Instant}

/-- One call goes to such a phase and does such things. -/
theorem Unsigned.next (h : Unsigned e s) {ph : Phase} (es : List Event) (hcached : s'.cached = s.cached)
    (hphase : s'.phase = Function.update s.phase t ph) (hlog : s'.log = s.log ++ note t es) (hph : ph.Unsigned e)
    (hes : ∀ x ∈ es, x.Unsigned e) : Unsigned e s' := by
  refine ⟨hcached.trans h.cached, fun u => ?_, fun x hx => ?_⟩
  · rw [hphase]
    rcases eq_or_ne u t with rfl | hne
    · rw [Function.update_self]
      exact hph
    · rw [Function.update_of_ne hne]
      exact h.phase u
  · rw [hlog] at hx
    rcases List.mem_append.1 hx with hx | hx
    · exact h.log x hx
    · obtain ⟨y, hy, rfl⟩ := List.mem_map.1 hx
      exact hes y hy

theorem unsigned_of_trans (he : p.credentials.authRequestMaterial = .error e) (h : Unsigned e s) (ha : Trans p s a s') :
    Unsigned e s' := by
  have hidle : ∀ {t c}, s.phase t ≠ .requesting c := fun {t c} hph => by
    have hphase := h.phase t
    rw [hph] at hphase
    exact hphase
  cases ha with
  | @call t c hph => exact h.next [.called c] rfl rfl rfl trivial (by simp [Event.Unsigned])
  | serve hph hold hk => exact absurd (h.cached.symm.trans hk) (by simp)
  | request hph hold hdue hreq => exact absurd (he.symm.trans hreq) (by simp)
  | @unsigned t c e' hph hold hdue hreq =>
    obtain rfl : e = e' := Except.error.inj (he.symm.trans hreq)
    exact h.next [.failed (err e)] rfl rfl rfl rfl (by simp [Event.Unsigned])
  | obtain hph => exact absurd hph hidle
  | fail hph => exact absurd hph hidle
  | @inner t sent response hph =>
    have hphase := h.phase t
    rw [hph] at hphase
    exact absurd hphase id
  | cancel hph => exact h.next [.dropped] rfl rfl rfl trivial (by simp [Event.Unsigned])
  | tick => exact ⟨h.cached, h.phase, h.log⟩

/-- **With a key that cannot sign** nobody asks the device or gets a token, in every run, and no request goes on. -/
theorem unsigned_of_reachable (he : p.credentials.authRequestMaterial = .error e)
    (h : Reachable (step p) guard (init systemNow instantNow) s) : Unsigned e s :=
  h.invariant ⟨rfl, fun _ => trivial, by simp [init]⟩ fun _ _ _ hi _ ha => unsigned_of_trans he hi (trans_of_step ha)

end Unsigned

end TokenProvider

/-! ## One identity -/

section Agreement

variable {k : Pki} {read : Nat → String → Except IoError (List UInt8)} {paths : CredentialPaths}
  {m : CredentialMaterial}

/-- **The signed identity is the one that servers see.** The certificates of a loaded identity are those of its file,
and a server that is shown them takes the peer for an application exactly when there is one: then its identity is that
of the credentials. Every token request of every run with these credentials carries the two certificate files as they
were read and a signature of this identity; with a key that cannot sign, no run asks for a token. -/
theorem identity_agrees (hload : ClientCredentials.load k read paths = ok m) : ∃ chain,
    (∀ domainName, collectCerts k (m.tlsConfig domainName).identityCertPem = some chain) ∧
    (∀ extensions : Extensions, extensions.Shows chain →
      (chain.length = 1 → ∃ app, peerApplication k extensions = ok app ∧ app.appId = m.applicationId) ∧
      (chain.length ≠ 1 → peerApplication k extensions = err (.invalidPeerCertificateCount chain.length))) ∧
    ∀ p : TokenProvider, p.credentials = m.toClientCredentials → ∀ systemNow instantNow s,
      Reachable (TokenProvider.step p) anyStep (TokenProvider.init systemNow instantNow) s →
      (∀ t request, (t, .requested request) ∈ s.log → read 0 paths.boxCertificate = .ok request.boxCert ∧
        read 1 paths.applicationCertificate = .ok request.appCert ∧
        m.signingKey.signature (Text.bytes m.applicationId) = .ok request.signature) ∧
      (m.signingKey = .unsupported → TokenProvider.Unsigned .unsupportedAuthSigningKey s) := by
  obtain ⟨box, app, keyPem, boxChain, chain, key, hbox, happ, -, -, ⟨hchain, hvalid⟩, -, -, rfl⟩ := load_eq_ok.1 hload
  refine ⟨chain, fun _ => hchain, fun extensions hshows => ?_, fun p hp systemNow instantNow s hreach => ⟨?_, ?_⟩⟩
  · rw [peerApplication_of_shows hshows]
    constructor
    · intro hlen
      obtain ⟨c, rfl⟩ := List.length_eq_one_iff.1 hlen
      obtain ⟨x, hx⟩ := Option.isSome_iff_exists.1 (hvalid.parse c List.mem_cons_self)
      exact ⟨_, applicationFromCertificates_single hx, rfl⟩
    · intro hlen
      exact if_pos hlen
  · intro t request hmem
    have hreq := TokenProvider.request_of_reachable hreach hmem
    rw [hp] at hreq
    obtain ⟨signature, hsignature, rfl⟩ := exists_signature hreq
    exact ⟨hbox, happ, hsignature⟩
  · intro hkey
    refine TokenProvider.unsigned_of_reachable ?_ hreach
    rw [hp, ClientCredentials.authRequestMaterial, hkey]
    rfl

/-- The certificate of an application `app-123` of a box `box-456`. -/
def appCertificate : String :=
  "MIIBSDCB+6ADAgECAgEBMAUGAytlcDAgMQwwCgYDVQQDDANCb3gxEDAOBgNVBAUTB2JveC00NTYwHhcNMjYxMTIwMTUyNDA1WhcN" ++
  "MzYxMTE3MTUyNDA1WjAtMRkwFwYDVQQDDBBhcHAuZXhhbXBsZS50ZXN0MRAwDgYDVQQFEwdhcHAtMTIzMCowBQYDK2VwAyEANPrD" ++
  "rewatGtaAmGRgxAwJvLzQkewIYDEHPnXkptkn2mjTTBLMAkGA1UdEwQCMAAwHQYDVR0OBBYEFNMx7LnCLShkEZKEMDawx9Pp9vIJ" ++
  "MB8GA1UdIwQYMBaAFEcQ9N+DNzW5y75HOvz8DSSYpSZlMAUGAytlcANBAL3lPFtT3lZkPb9YebXdece+mONk7KWb7fsSG60NuL9w" ++
  "cQZNpFy1P6fvt+MJITr9fclbhE3qGBf+tsqrPKTBiw0="

/-- Its Ed25519 key. -/
def appKey : String := "MC4CAQAwBQYDK2VwBCIEIIE2LqXAiBurn3MjmAYYdd+UYYCOUmBjCMkrVNN4pR/S"

/-- The signature of its identity. -/
def appSignature : String :=
  "eSZlzgt+7gCdvoJk7xCyHuk/xjGxQ86VNLxjcTbN4eAVIFuG9SJtcf6MqnNt4ZnnyUDgU3nYJxbvpgTHb8ikCQ"

/-- A PEM file with one block. -/
def pemFile (label text : String) : List UInt8 :=
  Text.bytes ("-----BEGIN " ++ label ++ "-----\n" ++ text ++ "\n-----END " ++ label ++ "-----\n")

/-- The bytes of a base64 text. -/
def decoded (text : String) : List UInt8 := (Base64.standardNoPad.decode (text.replace "=" "")).getD []

def appName : X509Name := ⟨[[⟨COMMON_NAME, some "app.example.test"⟩], [⟨SERIAL_NUMBER, some "app-123"⟩]]⟩

def boxName : X509Name := ⟨[[⟨COMMON_NAME, some "Box"⟩], [⟨SERIAL_NUMBER, some "box-456"⟩]]⟩

/-- What the packages read in the files of this application. -/
def appPki : Pki where
  certs _ := [some (decoded appCertificate)]
  privateKey _ := some (some (.pkcs8 (decoded appKey)))
  parseX509Certificate _ := some ⟨appName, boxName⟩
  certifiedKeyFromDer _ _ := true
  ed25519FromPkcs8Der _ := some fun _ => decoded appSignature
  rsaFromPkcs8Der _ := none
  rsaFromPkcs1Der _ := none

/-- The files of this application; the box has the same certificate. -/
def appFiles : Nat → String → Except IoError (List UInt8)
  | 2, _ => .ok (pemFile "PRIVATE KEY" appKey)
  | _, _ => .ok (pemFile "CERTIFICATE" appCertificate)

/-- A server that is shown the certificate of this application, over TCP. -/
theorem identity_agrees_app : ∃ m, ClientCredentials.load appPki appFiles .runtime = ok m ∧
    m.applicationId = "app-123" ∧
    ∃ app, peerApplication appPki ⟨some (some [decoded appCertificate]), none⟩ = ok app ∧
      app.appId = m.applicationId := by
  obtain ⟨m, hm⟩ : ∃ m, ClientCredentials.load appPki appFiles .runtime = ok m := ⟨_, rfl⟩
  have hid : m.applicationId = "app-123" := by
    cases hm
    rfl
  obtain ⟨chain, hchain, hserver, -⟩ := identity_agrees hm
  obtain rfl : [decoded appCertificate] = chain := Option.some.inj (hchain "")
  exact ⟨m, hm, hid, (hserver _ (.inl rfl)).1 rfl⟩

end Agreement

end LzcSdk
