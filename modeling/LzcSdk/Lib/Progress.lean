import LzcSdk.Lib.FairLock
import LzcSdk.Lib.Lts
import Mathlib.Algebra.BigOperators.Group.Finset.Basic
import Mathlib.Algebra.Order.BigOperators.Group.Finset

/-!
# Progress of tasks

Tasks take the steps of a transition system. A rank says how many steps of its own a task has left: its steps lower it
and the steps of the others do not raise it (`Ranks`). So a task takes no more steps than its rank
(`Ranks.count_add_le`), and the runs of finitely many tasks are bounded (`Ranks.length_le`).

Where the tasks share a fair lock, a step of one of them is a `FairLock.Turn`. The tasks before a waiting task that
have not had their turn are `FairLock.pending`; every turn takes them from the front of that list (`Turn.pending`), and
so does a whole run (`run_turns`).
-/

namespace Lts

variable {σ α τ : Type} {step : σ → α → Option σ} {s s' : σ} {as : List α}

/-! ## Ranks -/

/-- A step lowers the rank of its task, and raises the rank of no other. -/
structure Ranks (step : σ → α → Option σ) (task : α → Option τ) (rank : σ → τ → Nat) : Prop where
  own : ∀ s a s' t, step s a = some s' → task a = some t → rank s' t < rank s t
  others : ∀ s a s' t, step s a = some s' → task a ≠ some t → rank s' t ≤ rank s t

variable {task : α → Option τ} {rank : σ → τ → Nat}

/-- A task takes no more steps than its rank. -/
theorem Ranks.count_add_le [DecidableEq τ] (h : Ranks step task rank) (t : τ) : ∀ {as : List α} {s : σ},
    run step s as = some s' → (as.filterMap task).count t + rank s' t ≤ rank s t
  | [], _, hr => by
    cases hr
    exact Nat.le_of_eq (Nat.zero_add _)
  | a :: as, s, hr => by
    obtain ⟨r, ha, hr⟩ := Option.bind_eq_some_iff.1 hr
    have hrest : (as.filterMap task).count t + rank s' t ≤ rank r t := h.count_add_le t hr
    cases htask : task a with
    | none =>
      have hle : rank r t ≤ rank s t := h.others s a r t ha (by simp [htask])
      rw [List.filterMap_cons_none htask]
      omega
    | some u =>
      rw [List.filterMap_cons_some htask, List.count_cons]
      by_cases hu : u = t
      · have hlt : rank r t < rank s t := h.own s a r t ha (hu ▸ htask)
        rw [if_pos (by simpa using hu)]
        omega
      · have hle : rank r t ≤ rank s t := h.others s a r t ha (by simpa [htask] using hu)
        rw [if_neg (by simpa using hu)]
        omega

/-- A list of tasks is as long as the tasks occur in it. -/
theorem sum_count_eq_length [DecidableEq τ] {ts : List τ} {T : Finset τ} (h : ∀ t ∈ ts, t ∈ T) :
    ∑ t ∈ T, ts.count t = ts.length := by
  have hsum : ∑ t ∈ T, Multiset.count t (ts : Multiset τ) = Multiset.card (ts : Multiset τ) :=
    Multiset.sum_count_eq_card h
  simpa using hsum

/-- A run of finitely many tasks is no longer than their ranks. -/
theorem Ranks.length_le [DecidableEq τ] (h : Ranks step task rank) {T : Finset τ}
    (hT : ∀ a ∈ as, ∀ t, task a = some t → t ∈ T)
    (hr : run step s as = some s') : (as.filterMap task).length ≤ ∑ t ∈ T, rank s t := by
  have hmem : ∀ t ∈ as.filterMap task, t ∈ T := by
    intro t ht
    obtain ⟨a, ha, htask⟩ := List.mem_filterMap.1 ht
    exact hT a ha t htask
  rw [← sum_count_eq_length hmem]
  refine Finset.sum_le_sum fun t _ => ?_
  exact Nat.le_of_add_right_le (h.count_add_le t hr)

/-! ## Turns -/

/-- What every step takes from the front of a list, a run takes from it in order. -/
theorem run_turns {I : σ → Prop} {done todo : σ → List τ} {guard : α → Prop}
    (hstep : ∀ s a s', I s → guard a → step s a = some s' →
      I s' ∧ ∃ xs, done s' = done s ++ xs ∧ (xs ++ todo s').Sublist (todo s)) : ∀ {as : List α} {s : σ}, I s →
    (∀ a ∈ as, guard a) → run step s as = some s' →
    I s' ∧ ∃ xs, done s' = done s ++ xs ∧ (xs ++ todo s').Sublist (todo s)
  | [], _, hI, _, hr => by
    cases hr
    exact ⟨hI, [], (List.append_nil _).symm, List.Sublist.refl _⟩
  | a :: as, s, hI, hg, hr => by
    obtain ⟨r, ha, hr⟩ := Option.bind_eq_some_iff.1 hr
    obtain ⟨hIr, xs, hxs, hsub⟩ := hstep s a r hI (hg a List.mem_cons_self) ha
    obtain ⟨hI', ys, hys, hsub'⟩ := run_turns hstep hIr (fun b hb => hg b (List.mem_cons_of_mem a hb)) hr
    refine ⟨hI', xs ++ ys, by rw [hys, hxs, List.append_assoc], ?_⟩
    rw [List.append_assoc]
    exact ((List.Sublist.refl xs).append hsub').trans hsub

end Lts

namespace FairLock

variable {τ P : Type} [DecidableEq τ] {waits : P → Bool} {l l' : FairLock τ} {phase phase' : τ → P}
  {t : τ} {us : List τ}

/-- The tasks before `t` that still wait for their turn. -/
def pending (waits : P → Bool) (l : FairLock τ) (phase : τ → P) (t : τ) : List τ :=
  (l.ahead t).filter fun u => waits (phase u)

/-- What a step of one task does with the lock, and the task whose turn it is. -/
inductive Turn (waits : P → Bool) (l : FairLock τ) (phase : τ → P) (u : τ) : FairLock τ → (τ → P) → List τ → Prop where
  | enter {p : P} (h : u ∉ l.queue) : Turn waits l phase u (l.acquire u) (Function.update phase u p) []
  | serve {p : P} (hh : l.holder = some u) (hw : waits (phase u) = true) (hp : waits p = false) :
    Turn waits l phase u l (Function.update phase u p) [u]
  | depart {p : P} (hh : l.holder = some u) (hw : waits (phase u) = true) :
    Turn waits l phase u (l.release u) (Function.update phase u p) [u]
  | stay {p : P} (h : u ∉ l.queue) : Turn waits l phase u l (Function.update phase u p) []
  | leave {p : P} : Turn waits l phase u (l.release u) (Function.update phase u p) []

/-- The pending tasks do not depend on a task that is not before `t`. -/
theorem pending_update {u : τ} {p : P} (h : u ∉ l.ahead t) :
    pending waits l (Function.update phase u p) t = pending waits l phase t := by
  refine List.filter_congr fun v hv => ?_
  have hne : v ≠ u := fun hvu => h (hvu ▸ hv)
  rw [Function.update_of_ne hne]

/-- A task that leaves is no longer before the others. -/
theorem ahead_release {u : τ} (hne : u ≠ t) : (l.release u).ahead t = (l.ahead t).erase u := by
  rw [ahead, ahead, queue_release]
  induction l.queue with
  | nil => rfl
  | cons v vs ih =>
    by_cases hv : v = u
    · rw [hv, List.erase_cons_head, List.takeWhile_cons_of_pos (by simpa using hne), List.erase_cons_head]
    · rw [List.erase_cons_tail (by simpa using hv)]
      by_cases hvt : v = t
      · simp [hvt]
      · rw [List.takeWhile_cons_of_pos (by simpa using hvt), List.takeWhile_cons_of_pos (by simpa using hvt),
          List.erase_cons_tail (by simpa using hv), ih]

theorem not_mem_ahead_release {u : τ} : u ∉ (l.release u).ahead t := fun h =>
  (mem_release.1 (mem_of_mem_ahead h)).1 rfl

/-- The pending tasks when the holder has not had its turn: the holder is the first, and the others follow it. -/
theorem pending_of_holder {u : τ} {p : P} (hh : l.holder = some u) (hw : waits (phase u) = true) (hne : u ≠ t) :
    pending waits l phase t = u :: pending waits (l.release u) (Function.update phase u p) t := by
  rw [pending_update not_mem_ahead_release, pending, ahead_release_holder hh hne]
  exact List.filter_cons_of_pos hw

/-- A task that enters a queue where another one is does not get the lock. -/
theorem holder_acquire_ne {u : τ} (ht : t ∈ l.queue) (hu : u ∉ l.queue) : (l.acquire u).holder ≠ some u := by
  obtain ⟨v, rest, hq⟩ := List.exists_cons_of_ne_nil (List.ne_nil_of_mem ht)
  have hh : l.holder = some v := by
    rw [holder, hq]
    rfl
  rw [holder_acquire hh]
  rintro ⟨⟩
  exact hu (mem_of_holder hh)

/-- A turn takes its task from the front of the pending ones, and puts nobody between the others. -/
theorem Turn.pending {u : τ} (h : Turn waits l phase u l' phase' us) (ht : t ∈ l.queue) (hne : u ≠ t) :
    t ∈ l'.queue ∧ (us ++ pending waits l' phase' t).Sublist (pending waits l phase t) := by
  cases h with
  | @enter p hu =>
    refine ⟨mem_acquire.2 (.inl ht), ?_⟩
    have hahead : u ∉ (l.acquire u).ahead t := by
      rw [ahead_acquire_of_mem ht]
      exact fun hm => hu (mem_of_mem_ahead hm)
    rw [List.nil_append, pending_update hahead, FairLock.pending, ahead_acquire_of_mem ht]
    exact List.Sublist.refl _
  | @serve p hh hw hp =>
    refine ⟨ht, ?_⟩
    have hlast : FairLock.pending waits l (Function.update phase u p) t =
        FairLock.pending waits (l.release u) (Function.update phase u p) t := by
      rw [FairLock.pending, ahead_release_holder hh hne]
      exact List.filter_cons_of_neg (by simpa using hp)
    rw [hlast, pending_of_holder hh hw hne]
    exact List.Sublist.refl _
  | depart hh hw =>
    refine ⟨mem_release.2 ⟨hne.symm, ht⟩, ?_⟩
    rw [pending_of_holder hh hw hne]
    exact List.Sublist.refl _
  | stay hu =>
    refine ⟨ht, ?_⟩
    rw [List.nil_append, pending_update fun hm => hu (mem_of_mem_ahead hm)]
  | leave =>
    refine ⟨mem_release.2 ⟨hne.symm, ht⟩, ?_⟩
    rw [List.nil_append, pending_update not_mem_ahead_release, FairLock.pending, ahead_release hne]
    exact List.erase_sublist.filter _

omit [DecidableEq τ] in
/-- Where the queue agrees with the phases, a task that waits is behind a holder that waits or holds. -/
theorem Serves.exists_first {inQueue holds : P → Prop} (h : l.Serves phase inQueue holds) (ht : inQueue (phase t)) :
    ∃ u, l.holder = some u ∧ inQueue (phase u) := by
  have hmem : t ∈ l.queue := (h.mem_queue t).2 ht
  obtain ⟨u, rest, hq⟩ := List.exists_cons_of_ne_nil (List.ne_nil_of_mem hmem)
  have hh : l.holder = some u := by
    rw [FairLock.holder, hq]
    rfl
  exact ⟨u, hh, (h.mem_queue u).1 (mem_of_holder hh)⟩

end FairLock
