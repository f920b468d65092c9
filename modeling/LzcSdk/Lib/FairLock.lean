import Mathlib.Data.List.Nodup
import Mathlib.Data.List.TakeWhile
import Mathlib.Logic.Function.Basic
import Mathlib.Logic.Relation
import Mathlib.Tactic.Common

/-!
# A fair lock

An asynchronous mutex that serves its waiters in the order of their requests. The lock is the queue of the tasks that
hold it or wait for it; the first one holds it. A task enters at the tail and leaves from any place: the holder when
it drops its guard, a waiter when its request is cancelled. A waiter gets the lock where every holder before it can
leave (`exists_holder`).

In a system of tasks the phase of a task says whether it is in the queue and whether it has the lock. `Serves` is that
the queue agrees with the phases; `Serves.keep`, `Serves.acquire` and `Serves.release` keep it at a step of one task.
-/

/-- The tasks that hold the lock or wait for it; the first one holds it. -/
structure FairLock (τ : Type) where
  queue : List τ
  nodup : queue.Nodup
  deriving DecidableEq

namespace FairLock

variable {τ : Type} {l : FairLock τ} {t u : τ}

/-- A lock that nobody holds. -/
def free : FairLock τ := ⟨[], List.nodup_nil⟩

/-- The task that holds the lock. -/
def holder (l : FairLock τ) : Option τ := l.queue.head?

theorem mem_of_holder (h : l.holder = some t) : t ∈ l.queue := List.mem_of_head? h

variable [DecidableEq τ]

/-- Request the lock. -/
def acquire (l : FairLock τ) (t : τ) : FairLock τ :=
  if h : t ∈ l.queue then l
  else ⟨l.queue ++ [t], l.nodup.append (List.nodup_singleton t) (by simpa using h)⟩

/-- Give the lock up, or stop waiting for it. -/
def release (l : FairLock τ) (t : τ) : FairLock τ := ⟨l.queue.erase t, l.nodup.erase t⟩

theorem queue_acquire (h : t ∉ l.queue) : (l.acquire t).queue = l.queue ++ [t] := by
  rw [acquire, dif_neg h]

theorem queue_release : (l.release t).queue = l.queue.erase t := rfl

@[simp] theorem mem_acquire : u ∈ (l.acquire t).queue ↔ u ∈ l.queue ∨ u = t := by
  by_cases h : t ∈ l.queue
  · rw [acquire, dif_pos h]
    exact ⟨.inl, fun hu => hu.elim id fun hu => hu ▸ h⟩
  · simp [queue_acquire h]

@[simp] theorem mem_release : u ∈ (l.release t).queue ↔ u ≠ t ∧ u ∈ l.queue := l.nodup.mem_erase_iff

/-- Requests do not take the lock from its holder. -/
theorem holder_acquire (h : l.holder = some u) : (l.acquire t).holder = some u := by
  by_cases ht : t ∈ l.queue
  · rw [acquire, dif_pos ht]
    exact h
  · rw [holder, queue_acquire ht, List.head?_append, show l.queue.head? = some u from h]
    rfl

/-- A lock that nobody holds goes to the first request. -/
theorem holder_acquire_of_free (h : l.queue = []) : (l.acquire t).holder = some t := by
  rw [holder, queue_acquire (by simp [h]), h]
  rfl

/-- Neither does another task that leaves. -/
theorem holder_release (h : l.holder = some u) (hne : u ≠ t) : (l.release t).holder = some u := by
  obtain ⟨rest, hq⟩ := List.head?_eq_some_iff.1 h
  rw [holder, queue_release, hq, List.erase_cons_tail (by simpa using hne)]
  rfl

/-! ## The tasks ahead -/

/-- The tasks that get the lock before `t`; all of the queue when `t` is not in it. -/
def ahead (l : FairLock τ) (t : τ) : List τ := l.queue.takeWhile (· ≠ t)

theorem mem_of_mem_ahead (h : u ∈ l.ahead t) : u ∈ l.queue := (List.takeWhile_prefix _).subset h

theorem ahead_of_not_mem (h : t ∉ l.queue) : l.ahead t = l.queue := by
  rw [ahead, List.takeWhile_eq_self_iff]
  intro u hu
  simpa using fun hut : u = t => h (hut ▸ hu)

theorem ahead_of_holder (h : l.holder = some t) : l.ahead t = [] := by
  obtain ⟨rest, hq⟩ := List.head?_eq_some_iff.1 h
  simp [ahead, hq]

theorem takeWhile_ne_append {xs : List τ} (h : t ∈ xs) (ys : List τ) :
    (xs ++ ys).takeWhile (· ≠ t) = xs.takeWhile (· ≠ t) := by
  induction xs with
  | nil => cases h
  | cons x xs ih =>
    by_cases hx : x = t
    · simp [hx]
    · have hmem : t ∈ xs := (List.mem_cons.1 h).resolve_left fun htx => hx htx.symm
      rw [List.cons_append, List.takeWhile_cons_of_pos (by simpa using hx), ih hmem,
        List.takeWhile_cons_of_pos (by simpa using hx)]

/-- A request is behind every task that is in the queue. -/
theorem ahead_acquire_of_mem (h : t ∈ l.queue) : (l.acquire u).ahead t = l.ahead t := by
  by_cases hu : u ∈ l.queue
  · rw [acquire, dif_pos hu]
  · rw [ahead, queue_acquire hu]
    exact takeWhile_ne_append h [u]

theorem ahead_acquire_self (h : t ∉ l.queue) : (l.acquire t).ahead t = l.ahead t := by
  rw [ahead_of_not_mem h, ahead, queue_acquire h, List.takeWhile_append_of_pos]
  · simp
  · intro u hu
    simpa using fun hut : u = t => h (hut ▸ hu)

/-- Requests of others do not take a task forward. -/
theorem ahead_prefix_acquire (hne : u ≠ t) : l.ahead t <+: (l.acquire u).ahead t := by
  by_cases ht : t ∈ l.queue
  · exact (ahead_acquire_of_mem ht).symm ▸ List.prefix_rfl
  · have ht' : t ∉ (l.acquire u).queue := fun hm => (mem_acquire.1 hm).elim ht fun htu => hne htu.symm
    have hpre : l.queue <+: (l.acquire u).queue := by
      by_cases hu : u ∈ l.queue
      · have hsame : l.acquire u = l := dif_pos hu
        exact hsame.symm ▸ List.prefix_rfl
      · exact queue_acquire hu ▸ List.prefix_append _ _
    rw [ahead_of_not_mem ht, ahead_of_not_mem ht']
    exact hpre

theorem ne_of_mem_ahead (h : u ∈ l.ahead t) : u ≠ t := by
  simpa using List.mem_takeWhile_imp h

/-- The task behind the holder is one place nearer when the holder leaves. -/
theorem ahead_release_holder (h : l.holder = some u) (hne : u ≠ t) : l.ahead t = u :: (l.release u).ahead t := by
  obtain ⟨rest, hq⟩ := List.head?_eq_some_iff.1 h
  have hrest : (l.release u).queue = rest := by rw [queue_release, hq, List.erase_cons_head]
  rw [ahead, ahead, hrest, hq, List.takeWhile_cons, if_pos (by simpa using hne)]

/-- The first task ahead is the holder. -/
theorem holder_of_ahead {us : List τ} (h : l.ahead t = u :: us) : l.holder = some u := by
  obtain ⟨vs, hvs⟩ := List.takeWhile_prefix (l := l.queue) (fun v => decide (v ≠ t))
  have hq : l.queue = u :: us ++ vs := by rw [← hvs]; exact congrArg (· ++ vs) h
  rw [holder, hq]
  rfl

/-- A task in the queue with nobody ahead is the holder. -/
theorem holder_of_ahead_nil (ht : t ∈ l.queue) (h : l.ahead t = []) : l.holder = some t := by
  obtain ⟨u, rest, hq⟩ := List.exists_cons_of_ne_nil (List.ne_nil_of_mem ht)
  rw [ahead, hq, List.takeWhile_cons] at h
  split at h
  · cases h
  · rename_i hu
    rw [holder, hq]
    simpa using hu

/-- A task in the queue gets the lock where every holder before it can leave: an induction on the tasks ahead, carried
by an invariant that leaving keeps. -/
theorem exists_holder {σ : Type} {R : σ → σ → Prop} {lock : σ → FairLock τ} {I : σ → Prop}
    (hleave : ∀ s u, I s → (lock s).holder = some u → u ∈ (lock s).ahead t →
      ∃ s', Relation.ReflTransGen R s s' ∧ lock s' = (lock s).release u ∧ I s') {s : σ} (hs : I s)
    (ht : t ∈ (lock s).queue) : ∃ s', Relation.ReflTransGen R s s' ∧ I s' ∧ (lock s').holder = some t := by
  generalize hahead : (lock s).ahead t = us
  induction us generalizing s with
  | nil => exact ⟨s, .refl, hs, holder_of_ahead_nil ht hahead⟩
  | cons u us ih =>
    have hhold : (lock s).holder = some u := holder_of_ahead hahead
    have hmem : u ∈ (lock s).ahead t := hahead ▸ List.mem_cons_self
    have hne : u ≠ t := ne_of_mem_ahead hmem
    obtain ⟨r, hreach, hlock, hr⟩ := hleave s u hs hhold hmem
    have hrest : (lock r).ahead t = us := by
      have hrelease := ahead_release_holder hhold hne
      rw [hahead, ← hlock] at hrelease
      exact (List.cons.inj hrelease).2.symm
    have htr : t ∈ (lock r).queue := hlock ▸ mem_release.2 ⟨hne.symm, ht⟩
    obtain ⟨s', hreach', hs', hholder⟩ := ih hr htr hrest
    exact ⟨s', hreach.trans hreach', hs', hholder⟩

/-! ## The phases of the tasks -/

variable {P : Type} {waits holds : P → Prop} {phase : τ → P} {p : P}

/-- The queue holds the tasks whose phase waits, and a task whose phase holds the lock is the first. -/
structure Serves (l : FairLock τ) (phase : τ → P) (waits holds : P → Prop) : Prop where
  mem_queue : ∀ t, t ∈ l.queue ↔ waits (phase t)
  holder : ∀ t, holds (phase t) → l.holder = some t

omit [DecidableEq τ] in
/-- Two tasks do not hold the lock at a time. -/
theorem Serves.unique (h : l.Serves phase waits holds) (ht : holds (phase t)) (hu : holds (phase u)) : u = t :=
  Option.some.inj ((h.holder u hu).symm.trans (h.holder t ht))

/-- A task that stays in the queue or out of it. -/
theorem Serves.keep (h : l.Serves phase waits holds) (hw : waits p ↔ waits (phase t))
    (hh : holds p → l.holder = some t) : l.Serves (Function.update phase t p) waits holds := by
  refine ⟨fun u => ?_, fun u => ?_⟩ <;> rcases eq_or_ne u t with rfl | hu
  · rw [Function.update_self, hw]; exact h.mem_queue u
  · rw [Function.update_of_ne hu]; exact h.mem_queue u
  · rw [Function.update_self]; exact hh
  · rw [Function.update_of_ne hu]; exact h.holder u

/-- A task that enters the queue. -/
theorem Serves.acquire (h : l.Serves phase waits holds) (hw : waits p) (hh : ¬ holds p) :
    (l.acquire t).Serves (Function.update phase t p) waits holds := by
  refine ⟨fun u => ?_, fun u => ?_⟩ <;> rcases eq_or_ne u t with rfl | hu
  · rw [Function.update_self, mem_acquire]; exact ⟨fun _ => hw, fun _ => .inr rfl⟩
  · rw [Function.update_of_ne hu, mem_acquire, ← h.mem_queue u]; exact ⟨fun hm => hm.resolve_right hu, .inl⟩
  · rw [Function.update_self]; exact fun hp => absurd hp hh
  · rw [Function.update_of_ne hu]; exact fun hp => holder_acquire (h.holder u hp)

/-- A task that leaves the queue. -/
theorem Serves.release (h : l.Serves phase waits holds) (hw : ¬ waits p) (hh : ¬ holds p) :
    (l.release t).Serves (Function.update phase t p) waits holds := by
  refine ⟨fun u => ?_, fun u => ?_⟩ <;> rcases eq_or_ne u t with rfl | hu
  · rw [Function.update_self, mem_release]; exact ⟨fun hm => absurd rfl hm.1, fun hp => absurd hp hw⟩
  · rw [Function.update_of_ne hu, mem_release, ← h.mem_queue u]; exact ⟨And.right, fun hm => ⟨hu, hm⟩⟩
  · rw [Function.update_self]; exact fun hp => absurd hp hh
  · rw [Function.update_of_ne hu]; exact fun hp => holder_release (h.holder u hp) hu

end FairLock
