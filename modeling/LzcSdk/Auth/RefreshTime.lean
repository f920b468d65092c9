import LzcSdk.Auth.TokenCache

/-!
# The refresh time of a token

The deadline of a token is the device's: any seconds and any nanoseconds. `from_response` normalises them, converts them
to a reading of the wall clock, and adds what is left of the lifetime after the margin to a reading of the monotonic
clock. The sum fits the clock whenever the monotonic clock is at most the margin ahead of the wall clock, since then it
is not later than the deadline, or than the reading itself (`fromResponse_ne_panicked`).

**The refresh time is exact** (`refresh_time_exact`), for every deadline, and no call of a provider panics over one
(`no_call_panics`).
-/

namespace LzcSdk

open Outcome Lts

/-! ## Timestamps -/

/-- The nanoseconds since the epoch that a timestamp stands for. -/
def Timestamp.toNanos (t : Timestamp) : Int := t.seconds.toInt * NANOS_PER_SEC + t.nanos.toInt

/-- A timestamp with nanoseconds below one second is a time. -/
theorem exists_unixTime {d : Timestamp} (h : 0 ≤ d.nanos.toInt ∧ d.nanos.toInt < NANOS_PER_SEC) :
    ∃ system, TokenProvider.unixTime d = some system ∧ system.toNanos = d.toNanos := by
  refine ⟨_, dif_pos h, ?_⟩
  rw [Timespec.toNanos_mk, Timestamp.toNanos, nanosPerSec]
  omega

/-- What the conversion of timestamps does: a timestamp is normalised to one of the same time with nanoseconds below one
second, where the seconds hold it, and converts to this time when `SystemTime` represents it; on 64 bits it represents
all but perhaps the first second. -/
structure Converts (normalize : Timestamp → Timestamp) (representable : Timestamp → Prop)
    (tryFrom : Timestamp → Option SystemTime) : Prop where
  nanos_nonneg : ∀ d, 0 ≤ (normalize d).nanos.toInt
  nanos_lt : ∀ d, (normalize d).nanos.toInt < NANOS_PER_SEC
  same : ∀ d : Timestamp, -2 ^ 63 * NANOS_PER_SEC ≤ d.toNanos → d.toNanos < 2 ^ 63 * NANOS_PER_SEC →
    (normalize d).toNanos = d.toNanos
  wide : ∀ d, -2 ^ 63 < (normalize d).seconds.toInt → representable (normalize d)
  tryFrom_iff : ∀ d system,
    tryFrom d = some system ↔ representable (normalize d) ∧ system.toNanos = (normalize d).toNanos

section Converts

variable {normalize : Timestamp → Timestamp} {representable : Timestamp → Prop}
  {tryFrom : Timestamp → Option SystemTime} {d : Timestamp}

/-- A normalised timestamp that is represented has its time. -/
theorem Converts.exists_system (h : Converts normalize representable tryFrom) (hr : representable (normalize d)) :
    ∃ system, tryFrom d = some system ∧ system.toNanos = (normalize d).toNanos := by
  obtain ⟨system, -, hsystem⟩ := exists_unixTime ⟨h.nanos_nonneg d, h.nanos_lt d⟩
  exact ⟨system, (h.tryFrom_iff d system).2 ⟨hr, hsystem⟩, hsystem⟩

theorem Converts.tryFrom_eq_none (h : Converts normalize representable tryFrom) :
    tryFrom d = none ↔ ¬ representable (normalize d) := by
  constructor
  · intro hnone hr
    obtain ⟨system, hsystem, -⟩ := h.exists_system hr
    exact absurd (hnone.symm.trans hsystem) (by simp)
  · intro hr
    by_contra hne
    obtain ⟨system, hsystem⟩ := Option.ne_none_iff_exists'.1 hne
    exact hr ((h.tryFrom_iff d system).1 hsystem).1

end Converts

namespace AuthToken

section Response

variable {tryFrom : Timestamp → Option SystemTime} {response : RequestAuthTokenResponse} {nowSystem : SystemTime}
  {nowInstant : Instant} {e : Error}

/-! ## How a response fails -/

theorem toNanos_margin : TOKEN_REFRESH_MARGIN.toNanos = 30 * NANOS_PER_SEC := rfl

/-- With a deadline that is represented, only the sum is left. -/
theorem fromResponse_of_some {d : Timestamp} {system : SystemTime} (hd : response.deadline = some d)
    (hsystem : tryFrom d = some system) : fromResponse tryFrom response nowSystem nowInstant =
      (nowInstant.add (((system.durationSince nowSystem).getD .ZERO).saturatingSub TOKEN_REFRESH_MARGIN) >>=
        fun refreshAt => ok ⟨response.token, system, refreshAt⟩) := by
  rw [fromResponse, hd, okOr_some, ok_bind, hsystem]
  rfl

/-- A response is rejected without a deadline, or with one that is not represented. -/
theorem fromResponse_eq_err : fromResponse tryFrom response nowSystem nowInstant = err e ↔
    (response.deadline = none ∧ e = .missingTokenDeadline) ∨
      ∃ d, response.deadline = some d ∧ tryFrom d = none ∧ e = .invalidTokenDeadline := by
  cases hd : response.deadline with
  | none => simp [fromResponse, hd, okOr, eq_comm]
  | some d =>
    cases hsystem : tryFrom d with
    | none => simp [fromResponse, hd, okOr, hsystem, eq_comm]
    | some system =>
      rw [fromResponse_of_some hd hsystem]
      unfold Timespec.add
      split <;> simp [hsystem]

/-- It panics when the monotonic clock does not hold the refresh time. -/
theorem fromResponse_eq_panicked : fromResponse tryFrom response nowSystem nowInstant = panicked ↔
    ∃ d system, response.deadline = some d ∧ tryFrom d = some system ∧
      2 ^ 63 * NANOS_PER_SEC ≤ nowInstant.toNanos +
        max 0 (system.toNanos - nowSystem.toNanos - 30 * NANOS_PER_SEC) := by
  have hadd : ∀ system : SystemTime, (nowInstant.add (((system.durationSince nowSystem).getD .ZERO).saturatingSub
      TOKEN_REFRESH_MARGIN) : Outcome Error Instant) = panicked ↔ 2 ^ 63 * NANOS_PER_SEC ≤
        nowInstant.toNanos + max 0 (system.toNanos - nowSystem.toNanos - 30 * NANOS_PER_SEC) := by
    intro system
    have hlifetime := Timespec.toNanos_getD_durationSince system nowSystem
    rw [Timespec.add_eq_panicked, Duration.toNanos_saturatingSub, toNanos_margin]
    omega
  constructor
  · intro h
    rcases bind_eq_panicked.1 h with h | ⟨d, hd, h⟩
    · exact absurd h (okOr_ne_panicked _ _)
    rcases bind_eq_panicked.1 h with h | ⟨system, hsystem, h⟩
    · exact absurd h (okOr_ne_panicked _ _)
    rcases bind_eq_panicked.1 h with h | ⟨_, -, h⟩
    · exact ⟨d, system, okOr_eq_ok.1 hd, okOr_eq_ok.1 hsystem, (hadd system).1 h⟩
    · cases h
  · rintro ⟨d, system, hd, hsystem, hsum⟩
    rw [fromResponse_of_some hd hsystem, (hadd system).2 hsum, panicked_bind]

/-- With the monotonic clock at most the margin ahead of the wall clock, the refresh time is not later than the deadline
or the reading, and the clock holds it. -/
theorem fromResponse_ne_panicked (h : nowInstant.toNanos ≤ nowSystem.toNanos + 30 * NANOS_PER_SEC) :
    fromResponse tryFrom response nowSystem nowInstant ≠ panicked := by
  rw [ne_eq, fromResponse_eq_panicked]
  rintro ⟨d, system, -, -, hsum⟩
  have hnow := nowInstant.toNanos_lt
  have hdeadline := system.toNanos_lt
  omega

/-- A response with a deadline that is represented gives a token. -/
theorem exists_fromResponse {d : Timestamp} {system : SystemTime}
    (h : nowInstant.toNanos ≤ nowSystem.toNanos + 30 * NANOS_PER_SEC) (hd : response.deadline = some d)
    (hsystem : tryFrom d = some system) : ∃ k, fromResponse tryFrom response nowSystem nowInstant = ok k := by
  cases hout : fromResponse tryFrom response nowSystem nowInstant with
  | ok k => exact ⟨k, rfl⟩
  | err e =>
    rcases fromResponse_eq_err.1 hout with ⟨hnone, -⟩ | ⟨d', hd', hnone, -⟩
    · exact absurd (hnone.symm.trans hd) (by simp)
    · cases hd.symm.trans hd'
      exact absurd (hnone.symm.trans hsystem) (by simp)
  | panicked => exact absurd hout (fromResponse_ne_panicked h)

/-! ## The refresh time -/

/-- **No deadline of the device makes `from_response` panic, and the refresh time is exact**, where the monotonic clock
is at most the margin ahead of the wall clock. The response is rejected exactly without a deadline, or with one that
does not normalise to a time that `SystemTime` represents. Otherwise the deadline is the normalised time, and the
refresh time is the monotonic reading and what is left of the lifetime after the margin, to the nanosecond; for a
deadline gone by it is the reading. -/
theorem refresh_time_exact {normalize : Timestamp → Timestamp} {representable : Timestamp → Prop}
    (h : Converts normalize representable tryFrom)
    (hclock : nowInstant.toNanos ≤ nowSystem.toNanos + 30 * NANOS_PER_SEC) (response : RequestAuthTokenResponse) :
    let out := fromResponse tryFrom response nowSystem nowInstant
    out ≠ panicked ∧
    ((∃ e, out = err e) ↔
      response.deadline = none ∨ ∃ d, response.deadline = some d ∧ ¬ representable (normalize d)) ∧
    (∀ d, response.deadline = some d → -2 ^ 63 < (normalize d).seconds.toInt → ∃ k, out = ok k) ∧
    ∀ d, response.deadline = some d → representable (normalize d) → ∃ k, out = ok k ∧ k.token = response.token ∧
      k.deadline.toNanos = (normalize d).toNanos ∧
      (-2 ^ 63 * NANOS_PER_SEC ≤ d.toNanos → d.toNanos < 2 ^ 63 * NANOS_PER_SEC → k.deadline.toNanos = d.toNanos) ∧
      k.refreshAt.toNanos =
        nowInstant.toNanos + max 0 (k.deadline.toNanos - nowSystem.toNanos - 30 * NANOS_PER_SEC) ∧
      (k.deadline.toNanos ≤ nowSystem.toNanos → k.refreshAt = nowInstant) := by
  intro out
  refine ⟨fromResponse_ne_panicked hclock, ?_, fun d hd hwide => ?_, fun d hd hr => ?_⟩
  · constructor
    · rintro ⟨e, he⟩
      rcases fromResponse_eq_err.1 he with ⟨hnone, -⟩ | ⟨d, hd, hnone, -⟩
      · exact .inl hnone
      · exact .inr ⟨d, hd, h.tryFrom_eq_none.1 hnone⟩
    · rintro (hnone | ⟨d, hd, hr⟩)
      · exact ⟨_, fromResponse_eq_err.2 (.inl ⟨hnone, rfl⟩)⟩
      · exact ⟨_, fromResponse_eq_err.2 (.inr ⟨d, hd, h.tryFrom_eq_none.2 hr, rfl⟩)⟩
  · obtain ⟨system, hsystem, -⟩ := h.exists_system (h.wide d hwide)
    exact exists_fromResponse hclock hd hsystem
  · obtain ⟨system, hsystem, htime⟩ := h.exists_system hr
    obtain ⟨k, hk⟩ := exists_fromResponse hclock hd hsystem
    obtain ⟨htoken, ⟨d', hd', hdeadline⟩, hrefresh⟩ := fromResponse_eq_ok hk
    cases hd.symm.trans hd'
    cases hsystem.symm.trans hdeadline
    rw [toNanos_margin] at hrefresh
    refine ⟨k, hk, htoken, htime, fun hge hlt => htime.trans (h.same d hge hlt), hrefresh, fun hpast => ?_⟩
    apply Timespec.toNanos_injective
    omega

end Response

end AuthToken

namespace TokenProvider

/-! ## The calls of a provider -/

/-- The monotonic clock is at most the margin ahead of the wall clock, and no call has panicked. -/
structure Sound (s : State) : Prop where
  clocks : s.instantNow.toNanos ≤ s.systemNow.toNanos + 30 * NANOS_PER_SEC
  calls : ∀ t c, s.phase t ≠ .finished c panicked

section Sound

variable {p : TokenProvider} {s s' : State} {a : Action} {t : Nat} {ph : Phase}

theorem Sound.update (h : Sound s) (hph : ∀ c, ph ≠ .finished c panicked) (u : Nat) (c : Call) :
    Function.update s.phase t ph u ≠ .finished c panicked := by
  rcases eq_or_ne u t with rfl | hne
  · rw [Function.update_self]
    exact hph c
  · rw [Function.update_of_ne hne]
    exact h.calls u c

theorem afterToken_ne_panicked (k : AuthToken) (c c' : Call) : (p.afterToken k c).1 ≠ .finished c' panicked := by
  unfold afterToken
  split
  · simp
  · split <;> simp

theorem answer_ne_panicked (h : Sound s) (r : Except Nat RequestAuthTokenResponse) : p.answer s r ≠ panicked := by
  cases r with
  | error code => simp [answer]
  | ok response => exact AuthToken.fromResponse_ne_panicked h.clocks

theorem sound_of_trans (h : Sound s) (ha : Trans p s a s') : Sound s' := by
  cases ha with
  | call | request | inner | cancel => exact ⟨h.clocks, h.update (by simp)⟩
  | unsigned => exact ⟨h.clocks, h.update (by simp)⟩
  | @serve t c k => exact ⟨h.clocks, h.update (afterToken_ne_panicked k c)⟩
  | @obtain t c r k => exact ⟨h.clocks, h.update (afterToken_ne_panicked k c)⟩
  | @fail t c r =>
    refine ⟨h.clocks, h.update fun c' hc => ?_⟩
    cases hr : p.answer s r with
    | panicked => exact answer_ne_panicked h r hr
    | ok | err => rw [hr] at hc; cases hc
  | tick hs hi =>
    refine ⟨?_, h.calls⟩
    have hclocks := h.clocks
    rw [Timespec.toNanos_checkedAdd hs, Timespec.toNanos_checkedAdd hi]
    omega

/-- **No call panics**, whatever the device answers: in every run that starts with the monotonic clock at most the
margin ahead of the wall clock. -/
theorem no_call_panics {systemNow : SystemTime} {instantNow : Instant} {guard : State → Action → Prop}
    (hclock : instantNow.toNanos ≤ systemNow.toNanos + 30 * NANOS_PER_SEC)
    (h : Reachable (step p) guard (init systemNow instantNow) s) (t : Nat) (c : Call) :
    s.phase t ≠ .finished c panicked := by
  have hstart : Sound (init systemNow instantNow) := ⟨hclock, fun _ _ => nofun⟩
  exact (h.invariant hstart fun _ _ _ hs _ ha => sound_of_trans hs (trans_of_step ha)).calls t c

end Sound

end TokenProvider

/-! ## A conversion -/

/-- The canonical form of a timestamp; the seconds stop at the ends of their range. -/
def canonical (d : Timestamp) : Timestamp :=
  if d.toNanos < -2 ^ 63 * NANOS_PER_SEC then ⟨Int64.minValue, 0⟩
  else if 2 ^ 63 * NANOS_PER_SEC ≤ d.toNanos then ⟨Int64.maxValue, 999999999⟩
  else ⟨Int64.ofInt (d.toNanos / NANOS_PER_SEC), Int32.ofInt (d.toNanos % NANOS_PER_SEC)⟩

/-- The two fields of a canonical form that the seconds hold. -/
theorem canonical_eq {d : Timestamp} (hge : -2 ^ 63 * NANOS_PER_SEC ≤ d.toNanos)
    (hlt : d.toNanos < 2 ^ 63 * NANOS_PER_SEC) : (canonical d).seconds.toInt = d.toNanos / NANOS_PER_SEC ∧
      (canonical d).nanos.toInt = d.toNanos % NANOS_PER_SEC := by
  rw [nanosPerSec] at hge hlt ⊢
  rw [canonical, nanosPerSec, if_neg (Int.not_lt.2 hge), if_neg (Int.not_le.2 hlt)]
  exact ⟨Int64.toInt_ofInt_of_le (by omega) (by omega), Int32.toInt_ofInt_of_le (by omega) (by omega)⟩

theorem nanos_canonical (d : Timestamp) :
    0 ≤ (canonical d).nanos.toInt ∧ (canonical d).nanos.toInt < NANOS_PER_SEC := by
  by_cases hge : d.toNanos < -2 ^ 63 * NANOS_PER_SEC
  · rw [canonical, if_pos hge]
    decide
  · by_cases hlt : 2 ^ 63 * NANOS_PER_SEC ≤ d.toNanos
    · rw [canonical, if_neg hge, if_pos hlt]
      decide
    · rw [(canonical_eq (Int.not_lt.1 hge) (Int.not_le.1 hlt)).2, nanosPerSec]
      omega

theorem converts_canonical : Converts canonical (fun _ => True) fun d => TokenProvider.unixTime (canonical d) := by
  refine ⟨fun d => (nanos_canonical d).1, fun d => (nanos_canonical d).2, fun d hge hlt => ?_, fun _ _ => trivial,
    fun d system => ?_⟩
  · obtain ⟨hseconds, hnanos⟩ := canonical_eq hge hlt
    rw [Timestamp.toNanos, hseconds, hnanos]
    exact Int.ediv_mul_add_emod _ _
  · obtain ⟨time, hunix, htime⟩ := exists_unixTime (nanos_canonical d)
    rw [hunix, Option.some.injEq, ← htime, true_and, eq_comm]
    exact ⟨congrArg Timespec.toNanos, fun h => Timespec.toNanos_injective h⟩

/-- A tenth of a second less than half a minute between the clocks, and the last deadline there is. -/
theorem refresh_time_exact_last :
    let nowSystem : SystemTime := ⟨10, 500000000, by decide, by decide, by decide⟩
    let nowInstant : Instant := ⟨40, 400000000, by decide, by decide, by decide⟩
    let last : Timestamp := ⟨Int64.maxValue - 1, 1999999999⟩
    ∃ k, AuthToken.fromResponse (fun d => TokenProvider.unixTime (canonical d)) ⟨"token-1", some last⟩ nowSystem
      nowInstant = ok k ∧ k.refreshAt.toNanos = 2 ^ 63 * NANOS_PER_SEC - 100000001 := by
  intro nowSystem nowInstant last
  have hclock : nowInstant.toNanos ≤ nowSystem.toNanos + 30 * NANOS_PER_SEC := by decide
  obtain ⟨-, -, -, hexact⟩ := AuthToken.refresh_time_exact converts_canonical hclock ⟨"token-1", some last⟩
  obtain ⟨k, hk, -, -, hdeadline, hrefresh, -⟩ := hexact last rfl trivial
  refine ⟨k, hk, ?_⟩
  rw [hrefresh, hdeadline (by decide) (by decide)]
  decide

end LzcSdk
