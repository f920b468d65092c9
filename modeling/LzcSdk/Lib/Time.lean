import Mathlib.Algebra.Ring.Int.Defs
import Mathlib.Algebra.Ring.Nat
import Mathlib.Order.Lattice
import LzcSdk.Lib.Outcome

/-!
# Clock readings and durations

A clock reading is a 64-bit signed counter of seconds and the nanoseconds below one second; a duration is an unsigned
counter and nanoseconds. The operations compute on the two fields, with a borrow or a carry between them, and tell
where the result does not fit. `toNanos` is the number of nanoseconds in all: there the operations are subtraction and
addition (`toNanos_saturatingSub`, `durationSince_eq_some`, `checkedAdd_eq_some`), and the order is the order of the
numbers (`le_iff`).
-/

def NANOS_PER_SEC : Nat := 1000000000

theorem nanos_pos : 0 < NANOS_PER_SEC := by decide

theorem nanosPerSec : NANOS_PER_SEC = 1000000000 := rfl

/-! ## Durations -/

/-- A span of time. -/
structure Duration where
  secs : Nat
  nanos : Nat
  secs_lt : secs < 2 ^ 64
  nanos_lt : nanos < NANOS_PER_SEC
  deriving DecidableEq, Repr

namespace Duration

variable {a b : Duration}

/-- The nanoseconds of a duration. -/
def toNanos (d : Duration) : Nat := d.secs * NANOS_PER_SEC + d.nanos

def ZERO : Duration := ⟨0, 0, by decide, nanos_pos⟩

/-- The difference of two durations, if it is one. -/
def checkedSub (a b : Duration) : Option Duration :=
  if a.secs < b.secs then none
  else if h : b.nanos ≤ a.nanos then
    some ⟨a.secs - b.secs, a.nanos - b.nanos, by have := a.secs_lt; omega, by have := a.nanos_lt; omega⟩
  else if a.secs = b.secs then none
  else
    some ⟨a.secs - b.secs - 1, a.nanos + NANOS_PER_SEC - b.nanos, by have := a.secs_lt; omega,
      by have := b.nanos_lt; omega⟩

/-- The difference of two durations, or zero. -/
def saturatingSub (a b : Duration) : Duration := (a.checkedSub b).getD ZERO

@[simp] theorem toNanos_zero : ZERO.toNanos = 0 := rfl

theorem toNanos_mk {secs nanos : Nat} (hs : secs < 2 ^ 64) (hn : nanos < NANOS_PER_SEC) :
    (⟨secs, nanos, hs, hn⟩ : Duration).toNanos = secs * 1000000000 + nanos := rfl

theorem toNanos_eq (d : Duration) : d.toNanos = d.secs * 1000000000 + d.nanos := rfl

/-- The difference of the nanoseconds, cut off at zero. -/
theorem toNanos_saturatingSub (a b : Duration) : (a.saturatingSub b).toNanos = a.toNanos - b.toNanos := by
  have ha : a.nanos < 1000000000 := a.nanos_lt
  have hb : b.nanos < 1000000000 := b.nanos_lt
  unfold saturatingSub checkedSub
  rw [toNanos_eq a, toNanos_eq b]
  split
  · rw [Option.getD_none, toNanos_zero]
    omega
  · split
    · rw [Option.getD_some, toNanos_mk]
      omega
    · split
      · rw [Option.getD_none, toNanos_zero]
        omega
      · rw [Option.getD_some, toNanos_mk, nanosPerSec]
        omega

end Duration

/-! ## Clock readings -/

/-- A reading of a clock. -/
structure Timespec where
  sec : Int
  nsec : Nat
  sec_ge : -2 ^ 63 ≤ sec
  sec_lt : sec < 2 ^ 63
  nsec_lt : nsec < NANOS_PER_SEC
  deriving DecidableEq, Repr

namespace Timespec

variable {a b r t : Timespec} {d : Duration}

/-- The nanoseconds of a reading. -/
def toNanos (t : Timespec) : Int := t.sec * NANOS_PER_SEC + t.nsec

theorem toNanos_mk {sec : Int} {nsec : Nat} (hge : -2 ^ 63 ≤ sec) (hlt : sec < 2 ^ 63) (hn : nsec < NANOS_PER_SEC) :
    (⟨sec, nsec, hge, hlt, hn⟩ : Timespec).toNanos = sec * 1000000000 + nsec := rfl

theorem toNanos_eq (t : Timespec) : t.toNanos = t.sec * 1000000000 + t.nsec := rfl

/-- A reading is not later than another: the seconds decide, and then the nanoseconds. -/
instance : LE Timespec := ⟨fun a b => a.sec < b.sec ∨ a.sec = b.sec ∧ a.nsec ≤ b.nsec⟩

instance : DecidableLE Timespec := fun a b =>
  inferInstanceAs (Decidable (a.sec < b.sec ∨ a.sec = b.sec ∧ a.nsec ≤ b.nsec))

/-- The order is that of the nanoseconds. -/
theorem le_iff : a ≤ b ↔ a.toNanos ≤ b.toNanos := by
  have ha : a.nsec < 1000000000 := a.nsec_lt
  have hb : b.nsec < 1000000000 := b.nsec_lt
  show a.sec < b.sec ∨ a.sec = b.sec ∧ a.nsec ≤ b.nsec ↔ _
  rw [toNanos_eq, toNanos_eq]
  omega

/-- A reading is its nanoseconds. -/
theorem toNanos_injective (h : a.toNanos = b.toNanos) : a = b := by
  obtain ⟨sec, nsec, _, _, hlt⟩ := a
  obtain ⟨sec', nsec', _, _, hlt'⟩ := b
  have hlt : nsec < 1000000000 := hlt
  have hlt' : nsec' < 1000000000 := hlt'
  rw [toNanos_mk, toNanos_mk] at h
  have hsec : sec = sec' := by omega
  have hnsec : nsec = nsec' := by omega
  subst hsec
  subst hnsec
  rfl

/-- The time since an earlier reading, or `none` since a later one. -/
def durationSince (a b : Timespec) : Option Duration :=
  if b ≤ a then
    if h : b.nsec ≤ a.nsec then
      some ⟨(a.sec - b.sec).toNat, a.nsec - b.nsec, by have := a.sec_lt; have := b.sec_ge; omega,
        by have := a.nsec_lt; omega⟩
    else
      some ⟨(a.sec - b.sec - 1).toNat, a.nsec + NANOS_PER_SEC - b.nsec,
        by have := a.sec_lt; have := b.sec_ge; omega, by have := b.nsec_lt; omega⟩
  else none

/-- The reading a duration later, if the counter holds it. -/
def checkedAdd (t : Timespec) (d : Duration) : Option Timespec :=
  if h : t.sec + d.secs < 2 ^ 63 then
    if hn : t.nsec + d.nanos < NANOS_PER_SEC then
      some ⟨t.sec + d.secs, t.nsec + d.nanos, by have := t.sec_ge; omega, h, hn⟩
    else if hc : t.sec + d.secs + 1 < 2 ^ 63 then
      some ⟨t.sec + d.secs + 1, t.nsec + d.nanos - NANOS_PER_SEC, by have := t.sec_ge; omega, hc,
        by have := t.nsec_lt; have := d.nanos_lt; omega⟩
    else none
  else none

/-- `+` on instants: panics where the counter does not hold the sum. -/
def add {ε : Type} (t : Timespec) (d : Duration) : Outcome ε Timespec :=
  match t.checkedAdd d with
  | some r => .ok r
  | none => .panicked

/-- The time since a reading is the difference of the nanoseconds. -/
theorem durationSince_eq_some (h : a.durationSince b = some d) : (d.toNanos : Int) = a.toNanos - b.toNanos := by
  have ha : a.nsec < 1000000000 := a.nsec_lt
  have hb : b.nsec < 1000000000 := b.nsec_lt
  unfold durationSince at h
  split at h
  · rename_i hle
    have hle : b.sec < a.sec ∨ b.sec = a.sec ∧ b.nsec ≤ a.nsec := hle
    rw [toNanos_eq, toNanos_eq]
    split at h
    · cases h
      rw [Duration.toNanos_mk]
      omega
    · cases h
      rw [Duration.toNanos_mk, nanosPerSec]
      omega
  · cases h

theorem durationSince_eq_none : a.durationSince b = none ↔ a.toNanos < b.toNanos := by
  rw [← Int.not_le, ← le_iff]
  unfold durationSince
  split
  · rename_i hle
    split <;> simp [hle]
  · rename_i hle
    simp [hle]

/-- The difference of the nanoseconds, or zero since a later reading. -/
theorem toNanos_getD_durationSince (a b : Timespec) :
    (((a.durationSince b).getD .ZERO).toNanos : Int) = max 0 (a.toNanos - b.toNanos) := by
  cases h : a.durationSince b with
  | some d =>
    have hd := durationSince_eq_some h
    rw [Option.getD_some, hd, max_eq_right]
    omega
  | none =>
    have hlt := durationSince_eq_none.1 h
    rw [Option.getD_none, max_eq_left (by omega)]
    rfl

/-- The reading a duration later has the sum of the nanoseconds. -/
theorem toNanos_checkedAdd (h : t.checkedAdd d = some r) : r.toNanos = t.toNanos + d.toNanos := by
  unfold checkedAdd at h
  rw [toNanos_eq t, Duration.toNanos_eq]
  split at h
  · split at h
    · cases h
      rw [toNanos_mk]
      omega
    · rename_i hn
      split at h
      · cases h
        have hn : ¬ t.nsec + d.nanos < 1000000000 := hn
        rw [toNanos_mk, nanosPerSec]
        omega
      · cases h
  · cases h

/-- There is one when the counter holds the sum. -/
theorem isSome_checkedAdd (h : r.toNanos = t.toNanos + d.toNanos) : (t.checkedAdd d).isSome := by
  have ht : t.nsec < 1000000000 := t.nsec_lt
  have hd : d.nanos < 1000000000 := d.nanos_lt
  have hr : r.nsec < 1000000000 := r.nsec_lt
  have hlt := r.sec_lt
  rw [toNanos_eq, toNanos_eq, Duration.toNanos_eq] at h
  unfold checkedAdd
  rw [dif_pos (by omega)]
  split
  · rfl
  · rename_i hn
    have hn : ¬ t.nsec + d.nanos < 1000000000 := hn
    rw [dif_pos (by omega)]
    rfl

theorem checkedAdd_eq_some : t.checkedAdd d = some r ↔ r.toNanos = t.toNanos + d.toNanos := by
  refine ⟨toNanos_checkedAdd, fun h => ?_⟩
  obtain ⟨r', hr'⟩ := Option.isSome_iff_exists.1 (isSome_checkedAdd h)
  rw [hr', toNanos_injective ((toNanos_checkedAdd hr').trans h.symm)]

theorem add_eq_ok {ε : Type} : (t.add d : Outcome ε Timespec) = .ok r ↔ r.toNanos = t.toNanos + d.toNanos := by
  rw [← checkedAdd_eq_some]
  unfold add
  cases t.checkedAdd d <;> simp

/-- A reading is below the end of the counter. -/
theorem toNanos_lt (t : Timespec) : t.toNanos < 2 ^ 63 * NANOS_PER_SEC := by
  have hlt := t.sec_lt
  have hn : t.nsec < 1000000000 := t.nsec_lt
  rw [toNanos_eq, nanosPerSec]
  omega

/-- There is no reading a duration later when the sum is behind the end of the counter. -/
theorem checkedAdd_eq_none : t.checkedAdd d = none ↔ 2 ^ 63 * NANOS_PER_SEC ≤ t.toNanos + d.toNanos := by
  constructor
  · intro h
    have ht : t.nsec < 1000000000 := t.nsec_lt
    rw [toNanos_eq, Duration.toNanos_eq, nanosPerSec]
    unfold checkedAdd at h
    split at h
    · split at h
      · cases h
      · rename_i hn
        have hn : ¬ t.nsec + d.nanos < 1000000000 := hn
        split at h
        · cases h
        · omega
    · omega
  · intro h
    by_contra hne
    obtain ⟨r, hr⟩ := Option.ne_none_iff_exists'.1 hne
    have hlt := r.toNanos_lt
    rw [toNanos_checkedAdd hr] at hlt
    omega

theorem add_eq_panicked {ε : Type} :
    (t.add d : Outcome ε Timespec) = .panicked ↔ 2 ^ 63 * NANOS_PER_SEC ≤ t.toNanos + d.toNanos := by
  rw [← checkedAdd_eq_none]
  unfold add
  cases t.checkedAdd d <;> simp

end Timespec

/-- A reading of the wall clock. -/
abbrev SystemTime := Timespec

/-- A reading of the monotonic clock. -/
abbrev Instant := Timespec
