import LzcSdk.Lib.Text
import LzcSdk.Lib.Time
import LzcSdk.Error

/-!
# Device tokens

`request_auth_token` sends the signed identity of the application, and the device answers with a token and its
deadline. `from_response` translates the deadline to the monotonic clock, once, and takes off a margin: from
`refresh_at` on the token is refreshed. When the two clocks go on together, this is from the time on at which no more
than the margin is left before the deadline (`shouldRefresh_iff`).
-/

namespace LzcSdk

open Outcome

/-! ## The request -/

/-- The key that signs the identity of the application. -/
inductive ApplicationSigningKey where
  | ed25519 (sign : List UInt8 → List UInt8)
  | rsa (sign : List UInt8 → Option (List UInt8))
  | unsupported

/-- What the credentials give to a request. -/
structure ClientCredentials where
  boxCertificatePem : List UInt8
  applicationCertificatePem : List UInt8
  applicationId : String
  signingKey : ApplicationSigningKey

structure RequestAuthTokenRequest where
  boxCert : List UInt8
  appCert : List UInt8
  signature : List UInt8
  deriving DecidableEq, Repr

/-- The signature of the application identity. -/
def ApplicationSigningKey.signature (applicationId : List UInt8) :
    ApplicationSigningKey → Except Error (List UInt8)
  | ed25519 sign => .ok (sign applicationId)
  | rsa sign =>
    match sign applicationId with
    | some signature => .ok signature
    | none => .error .authSigning
  | unsupported => .error .unsupportedAuthSigningKey

/-- The request that the credentials give, or the error of signing. -/
def ClientCredentials.authRequestMaterial (c : ClientCredentials) : Except Error RequestAuthTokenRequest :=
  (c.signingKey.signature (Text.bytes c.applicationId)).map fun signature =>
    ⟨c.boxCertificatePem, c.applicationCertificatePem, signature⟩

/-! ## The response -/

/-- A protobuf timestamp. -/
structure Timestamp where
  seconds : Int64
  nanos : Int32
  deriving DecidableEq, Repr

structure RequestAuthTokenResponse where
  token : String
  deadline : Option Timestamp
  deriving DecidableEq, Repr

def TOKEN_REFRESH_MARGIN : Duration := ⟨30, 0, by decide, nanos_pos⟩

/-- Secret device API token and its server-provided deadline. -/
structure AuthToken where
  token : String
  deadline : SystemTime
  refreshAt : Instant
  deriving DecidableEq, Repr

namespace AuthToken

def shouldRefresh (k : AuthToken) (now : Instant) : Bool := decide (k.refreshAt ≤ now)

/-- The token of a response, at a reading of the two clocks; `tryFrom` reads the timestamp. -/
def fromResponse (tryFrom : Timestamp → Option SystemTime) (response : RequestAuthTokenResponse)
    (nowSystem : SystemTime) (nowInstant : Instant) : Outcome Error AuthToken := do
  let deadline ← okOr .missingTokenDeadline response.deadline
  let deadline ← okOr .invalidTokenDeadline (tryFrom deadline)
  let lifetime := (deadline.durationSince nowSystem).getD .ZERO
  let refreshAt ← nowInstant.add (lifetime.saturatingSub TOKEN_REFRESH_MARGIN)
  return ⟨response.token, deadline, refreshAt⟩

/-! ## The refresh time -/

/-- More than the margin is left before the deadline. -/
def HasMargin (k : AuthToken) (now : SystemTime) : Prop :=
  now.toNanos + TOKEN_REFRESH_MARGIN.toNanos < k.deadline.toNanos

instance (k : AuthToken) (now : SystemTime) : Decidable (k.HasMargin now) :=
  inferInstanceAs (Decidable (_ < _))

/-- The refresh time is the margin before the deadline, seen from these readings of the clocks, or a time gone by. -/
def Timed (k : AuthToken) (nowSystem : SystemTime) (nowInstant : Instant) : Prop :=
  ∃ past ≤ nowInstant.toNanos, k.refreshAt.toNanos =
    max past (k.deadline.toNanos - TOKEN_REFRESH_MARGIN.toNanos - (nowSystem.toNanos - nowInstant.toNanos))

section Timed

variable {tryFrom : Timestamp → Option SystemTime} {response : RequestAuthTokenResponse} {k : AuthToken}
  {nowSystem laterSystem : SystemTime} {nowInstant laterInstant : Instant}

/-- A token is that of its response, with the refresh time that is left after the margin. -/
theorem fromResponse_eq_ok (h : fromResponse tryFrom response nowSystem nowInstant = ok k) :
    k.token = response.token ∧ (∃ deadline, response.deadline = some deadline ∧ tryFrom deadline = some k.deadline) ∧
      k.refreshAt.toNanos = nowInstant.toNanos +
        max 0 (k.deadline.toNanos - nowSystem.toNanos - TOKEN_REFRESH_MARGIN.toNanos) := by
  obtain ⟨deadline, hdeadline, h⟩ := bind_eq_ok.1 h
  obtain ⟨system, hsystem, h⟩ := bind_eq_ok.1 h
  obtain ⟨refreshAt, hrefresh, h⟩ := bind_eq_ok.1 h
  cases h
  refine ⟨rfl, ⟨deadline, okOr_eq_ok.1 hdeadline, okOr_eq_ok.1 hsystem⟩, ?_⟩
  have hlifetime := Timespec.toNanos_getD_durationSince system nowSystem
  have hsum := Timespec.add_eq_ok.1 hrefresh
  rw [Duration.toNanos_saturatingSub] at hsum
  show refreshAt.toNanos = _ + max 0 (system.toNanos - _ - _)
  omega

theorem timed_fromResponse (h : fromResponse tryFrom response nowSystem nowInstant = ok k) :
    k.Timed nowSystem nowInstant := by
  obtain ⟨-, -, hrefresh⟩ := fromResponse_eq_ok h
  refine ⟨nowInstant.toNanos, le_rfl, ?_⟩
  rw [hrefresh]
  omega

/-- The clocks go on together. -/
theorem Timed.advance (h : k.Timed nowSystem nowInstant) (hle : nowInstant.toNanos ≤ laterInstant.toNanos)
    (hsame : laterSystem.toNanos - laterInstant.toNanos = nowSystem.toNanos - nowInstant.toNanos) :
    k.Timed laterSystem laterInstant := by
  obtain ⟨past, hpast, hrefresh⟩ := h
  exact ⟨past, hpast.trans hle, by rw [hsame]; exact hrefresh⟩

/-- **A token is refreshed when the margin has begun.** -/
theorem Timed.shouldRefresh_iff (h : k.Timed nowSystem nowInstant) :
    k.shouldRefresh nowInstant ↔ ¬ k.HasMargin nowSystem := by
  obtain ⟨past, hpast, hrefresh⟩ := h
  rw [shouldRefresh, decide_eq_true_iff, Timespec.le_iff, hrefresh, HasMargin]
  omega

end Timed

end AuthToken

end LzcSdk
