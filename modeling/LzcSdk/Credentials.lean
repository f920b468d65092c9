import LzcSdk.Auth.Token

/-!
# Credentials

An application has three files: the certificate of its box, its own certificate, and its private key. `load` reads
them, checks that the certificates are X.509 and that the key belongs to the certificate, and takes the identity of the
application from the serial number attribute of its subject (`applicationSerialNumber`). What the packages read in such
files is a parameter (`Pki`).

`load_eq_ok` says when the files make an identity, and what it is; an error names the file that is at fault
(`atFault_of_load`).
-/

namespace LzcSdk

open ByteIo (IoError)
open Outcome

/-! ## Certificates and keys -/

/-- `Oid::from`: an object identifier. -/
abbrev Oid := List Nat

/-- The serial number attribute of a name. -/
def SERIAL_NUMBER : Oid := [2, 5, 4, 5]

/-- The common name attribute of a name. -/
def COMMON_NAME : Oid := [2, 5, 4, 3]

/-- An attribute of a name, and its value if that is a string. -/
structure AttributeTypeAndValue where
  attrType : Oid
  asStr : Option String
  deriving DecidableEq, Repr

/-- A distinguished name: sets of attributes in order. -/
structure X509Name where
  rdnSeq : List (List AttributeTypeAndValue)
  deriving DecidableEq, Repr

/-- The attributes of one type. -/
def X509Name.iterByOid (name : X509Name) (oid : Oid) : List AttributeTypeAndValue :=
  name.rdnSeq.flatten.filter fun a => a.attrType = oid

/-- The value of the first attribute of a type, or nothing if it is no string. -/
def X509Name.firstStr (name : X509Name) (oid : Oid) : String :=
  ((name.iterByOid oid).head?.bind fun value => value.asStr).getD ""

/-- What the SDK reads of a certificate. -/
structure X509Certificate where
  subject : X509Name
  issuer : X509Name
  deriving DecidableEq, Repr

/-- The DER bytes of a certificate. -/
abbrev CertificateDer := List UInt8

/-- The DER bytes of a private key, by the format of its PEM block. -/
inductive PrivateKeyDer where
  | pkcs1 (der : List UInt8)
  | sec1 (der : List UInt8)
  | pkcs8 (der : List UInt8)
  deriving DecidableEq, Repr

/-- What the packages read: the certificates and the first private key of a PEM file, a certificate, a pair of a
certificate chain and its key, and signing keys. A malformed PEM file is `none`. -/
structure Pki where
  certs : List UInt8 → List (Option CertificateDer)
  privateKey : List UInt8 → Option (Option PrivateKeyDer)
  parseX509Certificate : CertificateDer → Option X509Certificate
  certifiedKeyFromDer : List CertificateDer → PrivateKeyDer → Bool
  ed25519FromPkcs8Der : List UInt8 → Option (List UInt8 → List UInt8)
  rsaFromPkcs8Der : List UInt8 → Option (List UInt8 → Option (List UInt8))
  rsaFromPkcs1Der : List UInt8 → Option (List UInt8 → Option (List UInt8))

/-! ## Loading -/

/-- Files that make up a `LazyCat` application client identity. -/
structure CredentialPaths where
  boxCertificate : String
  applicationCertificate : String
  applicationPrivateKey : String
  deriving DecidableEq, Repr

def CA_PATH : String := "/lzcapp/run/certs/box.crt"
def APP_CERT_PATH : String := "/lzcapp/run/certs/app.crt"
def APP_KEY_PATH : String := "/lzcapp/run/certs/app.key"

/-- The fixed paths mounted into `LazyCat` applications. -/
def CredentialPaths.runtime : CredentialPaths := ⟨CA_PATH, APP_CERT_PATH, APP_KEY_PATH⟩

/-- A loaded identity. -/
structure CredentialMaterial extends ClientCredentials where
  paths : CredentialPaths
  applicationPrivateKeyPem : List UInt8

/-- The configuration of the client side of a TLS connection. -/
structure ClientTlsConfig where
  domainName : String
  identityCertPem : List UInt8
  identityKeyPem : List UInt8
  assumeHttp2 : Bool

def CredentialMaterial.tlsConfig (m : CredentialMaterial) (domainName : String) : ClientTlsConfig :=
  ⟨domainName, m.applicationCertificatePem, m.applicationPrivateKeyPem, true⟩

/-- Read a file; `read` is the file system at the time. -/
def readCredential (read : String → Except IoError (List UInt8)) (path : String) : Outcome SdkError (List UInt8) :=
  match read path with
  | .ok bytes => ok bytes
  | .error source => err (.credentialRead path source)

section Load

variable (k : Pki)

/-- The certificates of a PEM file; one malformed block spoils them all. -/
def collectCerts (pem : List UInt8) : Option (List CertificateDer) := (k.certs pem).mapM id

def validateCertificates (path : String) (pem : List UInt8) : Outcome SdkError (List CertificateDer) := do
  let certificates ← okOr (.invalidCertificate path "malformed PEM certificate") (collectCerts k pem)
  if certificates.isEmpty then err (.invalidCertificate path "no certificate found")
  else if certificates.any fun certificate => (k.parseX509Certificate certificate).isNone then
    err (.invalidCertificate path "invalid X.509 certificate")
  else ok certificates

def applicationSigningKey : PrivateKeyDer → ApplicationSigningKey
  | .pkcs8 der =>
    match k.ed25519FromPkcs8Der der with
    | some sign => .ed25519 sign
    | none =>
      match k.rsaFromPkcs8Der der with
      | some sign => .rsa sign
      | none => .unsupported
  | .pkcs1 der =>
    match k.rsaFromPkcs1Der der with
    | some sign => .rsa sign
    | none => .unsupported
  | .sec1 _ => .unsupported

def validateApplicationKey (path : String) (pem : List UInt8) (certificateChain : List CertificateDer) :
    Outcome SdkError ApplicationSigningKey := do
  let key ← okOr (.invalidPrivateKey path "malformed PEM private key") (k.privateKey pem)
  let key ← okOr (.invalidPrivateKey path "no private key found") key
  let signingKey := applicationSigningKey k key
  if k.certifiedKeyFromDer certificateChain key then ok signingKey
  else err (.invalidPrivateKey path "unsupported key or certificate mismatch")

/-- The identity of an application: the serial number in the subject of its first certificate. -/
def applicationSerialNumber (certificates : List CertificateDer) : String :=
  match certificates.head? with
  | none => ""
  | some certificate =>
    match k.parseX509Certificate certificate with
    | none => ""
    | some certificate => certificate.subject.firstStr SERIAL_NUMBER

/-- Load and validate an identity; `read n` is the file system when the file number `n` is read. -/
def ClientCredentials.load (read : Nat → String → Except IoError (List UInt8)) (paths : CredentialPaths) :
    Outcome SdkError CredentialMaterial := do
  let boxCertificatePem ← readCredential (read 0) paths.boxCertificate
  let applicationCertificatePem ← readCredential (read 1) paths.applicationCertificate
  let applicationPrivateKeyPem ← readCredential (read 2) paths.applicationPrivateKey
  let _ ← validateCertificates k paths.boxCertificate boxCertificatePem
  let applicationCertificates ← validateCertificates k paths.applicationCertificate applicationCertificatePem
  let applicationId := applicationSerialNumber k applicationCertificates
  let signingKey ← validateApplicationKey k paths.applicationPrivateKey applicationPrivateKeyPem applicationCertificates
  return { boxCertificatePem, applicationCertificatePem, applicationId, signingKey, paths, applicationPrivateKeyPem }

end Load

/-! ## Identities that load -/

section Laws

variable {k : Pki} {read : Nat → String → Except IoError (List UInt8)} {paths : CredentialPaths} {path : String}
  {pem bytes : List UInt8} {certificates chain : List CertificateDer}

theorem readCredential_eq_ok {read : String → Except IoError (List UInt8)} :
    readCredential read path = ok bytes ↔ read path = .ok bytes := by
  unfold readCredential
  cases read path <;> simp

/-- Certificates that can be used: there is one, and all of them parse. -/
structure Valid (k : Pki) (certificates : List CertificateDer) : Prop where
  ne_nil : certificates ≠ []
  parse : ∀ c ∈ certificates, (k.parseX509Certificate c).isSome

theorem valid_iff : Valid k certificates ↔ ¬ certificates.isEmpty ∧
    ¬ certificates.any fun certificate => (k.parseX509Certificate certificate).isNone := by
  constructor
  · intro h
    refine ⟨by simpa using h.ne_nil, fun hany => ?_⟩
    obtain ⟨c, hc, hnone⟩ := List.any_eq_true.1 hany
    rw [Option.isNone_iff_eq_none] at hnone
    have hsome := h.parse c hc
    rw [hnone] at hsome
    cases hsome
  · rintro ⟨hnil, hall⟩
    refine ⟨by simpa using hnil, fun c hc => ?_⟩
    by_contra hnone
    exact hall (List.any_eq_true.2 ⟨c, hc, by simpa using hnone⟩)

theorem validateCertificates_eq_ok : validateCertificates k path pem = ok certificates ↔
    collectCerts k pem = some certificates ∧ Valid k certificates := by
  rw [validateCertificates, bind_eq_ok]
  constructor
  · rintro ⟨cs, hcs, h⟩
    split_ifs at h with hnil hany
    cases h
    exact ⟨okOr_eq_ok.1 hcs, valid_iff.2 ⟨hnil, hany⟩⟩
  · rintro ⟨hcs, hvalid⟩
    obtain ⟨hnil, hany⟩ := valid_iff.1 hvalid
    exact ⟨certificates, okOr_eq_ok.2 hcs, by rw [if_neg hnil, if_neg hany]⟩

theorem validateApplicationKey_eq_ok {signingKey : ApplicationSigningKey} :
    validateApplicationKey k path pem chain = ok signingKey ↔ ∃ key, k.privateKey pem = some (some key) ∧
      k.certifiedKeyFromDer chain key = true ∧ signingKey = applicationSigningKey k key := by
  constructor
  · intro h
    obtain ⟨found, hfound, h⟩ := bind_eq_ok.1 h
    obtain ⟨key, hkey, h⟩ := bind_eq_ok.1 h
    dsimp only at h
    split_ifs at h with hmatch
    cases h
    exact ⟨key, okOr_eq_ok.1 (okOr_eq_ok.1 hkey ▸ hfound), hmatch, rfl⟩
  · rintro ⟨key, hfound, hmatch, rfl⟩
    rw [validateApplicationKey, hfound, okOr_some, ok_bind, okOr_some, ok_bind, if_pos hmatch]

/-- **An identity loads** exactly when the three files can be read, both certificate files hold valid certificates, and
the key is that of the certificate; it holds what the files held. -/
theorem load_eq_ok {m : CredentialMaterial} : ClientCredentials.load k read paths = ok m ↔
    ∃ box app keyPem boxChain chain key,
      read 0 paths.boxCertificate = .ok box ∧ read 1 paths.applicationCertificate = .ok app ∧
      read 2 paths.applicationPrivateKey = .ok keyPem ∧
      (collectCerts k box = some boxChain ∧ Valid k boxChain) ∧ (collectCerts k app = some chain ∧ Valid k chain) ∧
      k.privateKey keyPem = some (some key) ∧ k.certifiedKeyFromDer chain key = true ∧
      m = { boxCertificatePem := box, applicationCertificatePem := app,
            applicationId := applicationSerialNumber k chain, signingKey := applicationSigningKey k key, paths := paths,
            applicationPrivateKeyPem := keyPem } := by
  constructor
  · intro h
    obtain ⟨box, hbox, h⟩ := bind_eq_ok.1 h
    obtain ⟨app, happ, h⟩ := bind_eq_ok.1 h
    obtain ⟨keyPem, hkeyPem, h⟩ := bind_eq_ok.1 h
    obtain ⟨boxChain, hboxChain, h⟩ := bind_eq_ok.1 h
    obtain ⟨chain, hchain, h⟩ := bind_eq_ok.1 h
    obtain ⟨signingKey, hkey, h⟩ := bind_eq_ok.1 h
    obtain ⟨key, hprivate, hmatch, rfl⟩ := validateApplicationKey_eq_ok.1 hkey
    cases h
    exact ⟨box, app, keyPem, boxChain, chain, key, readCredential_eq_ok.1 hbox, readCredential_eq_ok.1 happ,
      readCredential_eq_ok.1 hkeyPem, validateCertificates_eq_ok.1 hboxChain, validateCertificates_eq_ok.1 hchain,
      hprivate, hmatch, rfl⟩
  · rintro ⟨box, app, keyPem, boxChain, chain, key, hbox, happ, hkeyPem, hboxChain, hchain, hprivate, hmatch, rfl⟩
    rw [ClientCredentials.load, readCredential_eq_ok.2 hbox, ok_bind, readCredential_eq_ok.2 happ, ok_bind,
      readCredential_eq_ok.2 hkeyPem, ok_bind, validateCertificates_eq_ok.2 hboxChain, ok_bind,
      validateCertificates_eq_ok.2 hchain, ok_bind, validateApplicationKey_eq_ok.2 ⟨key, hprivate, hmatch, rfl⟩]
    rfl

/-! ## Errors -/

/-- An error is about a file that cannot be read, or that does not hold what it should. -/
inductive AtFault (k : Pki) (read : Nat → String → Except IoError (List UInt8)) (paths : CredentialPaths) :
    SdkError → Prop where
  | read {n : Nat} {path : String} {source : IoError}
    (hfile : (n, path) ∈ [(0, paths.boxCertificate), (1, paths.applicationCertificate),
      (2, paths.applicationPrivateKey)])
    (h : read n path = .error source) : AtFault k read paths (.credentialRead path source)
  | certificate {n : Nat} {path reason : String} {pem : List UInt8}
    (hfile : (n, path) ∈ [(0, paths.boxCertificate), (1, paths.applicationCertificate)]) (hread : read n path = .ok pem)
    (h : ∀ certificates, collectCerts k pem = some certificates → ¬ Valid k certificates) :
    AtFault k read paths (.invalidCertificate path reason)
  | key {reason : String} {app keyPem : List UInt8} {chain : List CertificateDer}
    (hread : read 1 paths.applicationCertificate = .ok app) (hchain : collectCerts k app = some chain)
    (hread' : read 2 paths.applicationPrivateKey = .ok keyPem)
    (h : ∀ key, k.privateKey keyPem = some (some key) → k.certifiedKeyFromDer chain key = false) :
    AtFault k read paths (.invalidPrivateKey paths.applicationPrivateKey reason)

variable {e : SdkError}

theorem readCredential_eq_err {read : String → Except IoError (List UInt8)} (h : readCredential read path = err e) :
    ∃ source, e = .credentialRead path source ∧ read path = .error source := by
  unfold readCredential at h
  split at h
  · cases h
  · rename_i source hread
    cases h
    exact ⟨source, rfl, hread⟩

theorem validateCertificates_eq_err (h : validateCertificates k path pem = err e) :
    (∃ reason, e = .invalidCertificate path reason) ∧
      ∀ certificates, collectCerts k pem = some certificates → ¬ Valid k certificates := by
  constructor
  · rcases bind_eq_err.1 h with hcerts | ⟨cs, -, h⟩
    · exact ⟨_, (okOr_eq_err.1 hcerts).2.symm⟩
    · split_ifs at h <;> cases h <;> exact ⟨_, rfl⟩
  · intro certificates hcerts hvalid
    rw [validateCertificates_eq_ok.2 ⟨hcerts, hvalid⟩] at h
    cases h

theorem validateApplicationKey_eq_err (h : validateApplicationKey k path pem chain = err e) :
    (∃ reason, e = .invalidPrivateKey path reason) ∧
      ∀ key, k.privateKey pem = some (some key) → k.certifiedKeyFromDer chain key = false := by
  constructor
  · rcases bind_eq_err.1 h with hfound | ⟨found, -, h⟩
    · exact ⟨_, (okOr_eq_err.1 hfound).2.symm⟩
    · rcases bind_eq_err.1 h with hkey | ⟨key, -, h⟩
      · exact ⟨_, (okOr_eq_err.1 hkey).2.symm⟩
      · dsimp only at h
        split_ifs at h
        cases h
        exact ⟨_, rfl⟩
  · intro key hfound
    by_contra hmatch
    rw [validateApplicationKey_eq_ok.2 ⟨key, hfound, by simpa using hmatch, rfl⟩] at h
    cases h

/-- **Every error names the file that is at fault.** -/
theorem atFault_of_load (h : ClientCredentials.load k read paths = err e) : AtFault k read paths e := by
  rcases bind_eq_err.1 h with hbox | ⟨box, hbox, h⟩
  · obtain ⟨source, rfl, hread⟩ := readCredential_eq_err hbox
    exact .read (n := 0) (by simp) hread
  rcases bind_eq_err.1 h with happ | ⟨app, happ, h⟩
  · obtain ⟨source, rfl, hread⟩ := readCredential_eq_err happ
    exact .read (n := 1) (by simp) hread
  rcases bind_eq_err.1 h with hkeyPem | ⟨keyPem, hkeyPem, h⟩
  · obtain ⟨source, rfl, hread⟩ := readCredential_eq_err hkeyPem
    exact .read (n := 2) (by simp) hread
  rcases bind_eq_err.1 h with hcerts | ⟨boxChain, -, h⟩
  · obtain ⟨⟨reason, rfl⟩, hinvalid⟩ := validateCertificates_eq_err hcerts
    exact .certificate (n := 0) (by simp) (readCredential_eq_ok.1 hbox) hinvalid
  rcases bind_eq_err.1 h with hcerts | ⟨chain, hchain, h⟩
  · obtain ⟨⟨reason, rfl⟩, hinvalid⟩ := validateCertificates_eq_err hcerts
    exact .certificate (n := 1) (by simp) (readCredential_eq_ok.1 happ) hinvalid
  rcases bind_eq_err.1 h with hkey | ⟨signingKey, -, h⟩
  · obtain ⟨⟨reason, rfl⟩, hmatch⟩ := validateApplicationKey_eq_err hkey
    exact .key (readCredential_eq_ok.1 happ) (validateCertificates_eq_ok.1 hchain).1 (readCredential_eq_ok.1 hkeyPem)
      hmatch
  · cases h

end Laws

end LzcSdk
