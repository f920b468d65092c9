import Mathlib.Logic.Relation
import Mathlib.Tactic.Common

/-!
# Runs of a transition system

A system is a function `step`: the state after an action, or `none` when the action is not enabled. `run` takes a list
of actions; `Reachable` is reachability by steps that a guard admits. What each admitted step preserves holds in every
state reached (`Reachable.invariant`); a run whose actions the guard admits reaches its last state
(`Reachable.of_run`, or `Along.reachable` where the guard depends on the state), and what is reached is reached by a run
(`Reachable.exists_run`); and what a system reaches is reached by another one that simulates its steps
(`Reachable.simulate`). Where the steps say something, `trace` is what a run says; a relation between the state and what
was said that each step keeps holds after the run (`run_trace`, or `Along.run_trace` where a guard admits the steps).
-/

namespace Lts

variable {σ α : Type} (step : σ → α → Option σ)

/-- Take the actions of a list in order. -/
def run : σ → List α → Option σ
  | s, [] => some s
  | s, a :: as => (step s a).bind fun s' => run s' as

/-- One step that the guard admits. -/
def Step (guard : σ → α → Prop) (s s' : σ) : Prop := ∃ a, guard s a ∧ step s a = some s'

/-- Reachability by steps that the guard admits. -/
def Reachable (guard : σ → α → Prop) : σ → σ → Prop := Relation.ReflTransGen (Step step guard)

/-- The guard that admits every step. -/
def anyStep : σ → α → Prop := fun _ _ => True

variable {step} {guard guard' : σ → α → Prop} {s s' s'' : σ}

/-- What every admitted step preserves holds in every state reached. -/
theorem Reachable.invariant {I : σ → Prop} (h : Reachable step guard s s') (h0 : I s)
    (hstep : ∀ s a s', I s → guard s a → step s a = some s' → I s') : I s' := by
  induction h with
  | refl => exact h0
  | tail _ hs ih =>
    obtain ⟨a, hg, ha⟩ := hs
    exact hstep _ a _ ih hg ha

theorem Reachable.trans (h : Reachable step guard s s') (h' : Reachable step guard s' s'') :
    Reachable step guard s s'' :=
  Relation.ReflTransGen.trans h h'

theorem Reachable.single {a : α} (ha : step s a = some s') (hg : guard s a) : Reachable step guard s s' :=
  Relation.ReflTransGen.single ⟨a, hg, ha⟩

/-- One step before. -/
theorem Reachable.cons {a : α} (ha : step s a = some s') (hg : guard s a) (h : Reachable step guard s' s'') :
    Reachable step guard s s'' :=
  Relation.ReflTransGen.head ⟨a, hg, ha⟩ h

/-- One more step. -/
theorem Reachable.snoc (h : Reachable step guard s s') {a : α} (hg : guard s' a) (ha : step s' a = some s'') :
    Reachable step guard s s'' :=
  Relation.ReflTransGen.tail h ⟨a, hg, ha⟩

/-- A wider guard reaches more. -/
theorem Reachable.mono (h : Reachable step guard s s') (hle : ∀ s a, guard s a → guard' s a) :
    Reachable step guard' s s' :=
  Relation.ReflTransGen.mono (fun _ _ ⟨a, hg, ha⟩ => ⟨a, hle _ a hg, ha⟩) _ _ h

/-- A run whose actions the guard admits reaches its last state. -/
theorem Reachable.of_run : ∀ {as : List α} {s : σ}, (∀ s, ∀ a ∈ as, guard s a) → run step s as = some s' →
    Reachable step guard s s'
  | [], _, _, h => by cases h; exact .refl
  | a :: as, s, hg, h => by
    obtain ⟨t, ha, ht⟩ := Option.bind_eq_some_iff.1 h
    exact .head ⟨a, hg s a List.mem_cons_self, ha⟩ (of_run (fun s b hb => hg s b (List.mem_cons_of_mem a hb)) ht)

variable (step) in
/-- The guard admits every action of a list where the list takes it. -/
def Along (guard : σ → α → Prop) (s : σ) (as : List α) : Prop :=
  ∀ before a after r, as = before ++ a :: after → run step s before = some r → guard r a

theorem Along.tail {a : α} {as : List α} (h : Along step guard s (a :: as)) (ha : step s a = some s') :
    Along step guard s' as := by
  rintro before b after r rfl hr
  refine h (a :: before) b after r rfl ?_
  rw [run, ha]
  exact hr

theorem Along.reachable : ∀ {as : List α} {s : σ}, Along step guard s as → run step s as = some s' →
    Reachable step guard s s'
  | [], _, _, hr => by
    cases hr
    exact .refl
  | a :: as, s, h, hr => by
    obtain ⟨r, ha, hr⟩ := Option.bind_eq_some_iff.1 hr
    exact .cons ha (h [] a as s rfl rfl) ((h.tail ha).reachable hr)

theorem Along.cons {a : α} {as : List α} (hg : guard s a) (ha : step s a = some s') (h : Along step guard s' as) :
    Along step guard s (a :: as) := by
  intro before b after r has hr
  cases before with
  | nil =>
    cases has
    cases hr
    exact hg
  | cons c before =>
    cases has
    rw [run, ha] at hr
    exact h before b after r rfl hr

/-- What is reached is reached by a run. -/
theorem Reachable.exists_run (h : Reachable step guard s s') :
    ∃ as, Along step guard s as ∧ run step s as = some s' := by
  induction h using Relation.ReflTransGen.head_induction_on with
  | refl => exact ⟨[], fun before b after r has => by simp at has, rfl⟩
  | head hs _ ih =>
    obtain ⟨a, hg, ha⟩ := hs
    obtain ⟨as, halong, hr⟩ := ih
    exact ⟨a :: as, halong.cons hg ha, by rw [run, ha]; exact hr⟩

/-- Some action of a run makes what is false at its start and true at its end. -/
theorem exists_turn {P : σ → Prop} : ∀ {as : List α} {s : σ}, run step s as = some s' → ¬ P s → P s' →
    ∃ before a after r r', as = before ++ a :: after ∧ step r a = some r' ∧ run step r' after = some s' ∧ ¬ P r ∧ P r'
  | [], _, h, h0, h1 => by cases h; exact absurd h1 h0
  | a :: as, s, h, h0, h1 => by
    obtain ⟨t, ha, ht⟩ := Option.bind_eq_some_iff.1 h
    by_cases hp : P t
    · exact ⟨[], a, as, s, t, rfl, ha, ht, h0, hp⟩
    · obtain ⟨before, b, after, r, r', rfl, hb, hr, hr0, hr1⟩ := exists_turn ht hp h1
      exact ⟨a :: before, b, after, r, r', rfl, hb, hr, hr0, hr1⟩

/-- **Simulation.** Where every admitted step of a system is some steps of another one under a map of the states, what
the first one reaches is reached by the second. -/
theorem Reachable.simulate {σ' α' : Type} {step' : σ' → α' → Option σ'} {guard' : σ' → α' → Prop} (f : σ → σ')
    (hstep : ∀ s a s', guard s a → step s a = some s' → Reachable step' guard' (f s) (f s'))
    (h : Reachable step guard s s') : Reachable step' guard' (f s) (f s') := by
  induction h with
  | refl => exact .refl
  | tail _ hs ih =>
    obtain ⟨a, hg, ha⟩ := hs
    exact ih.trans (hstep _ a _ hg ha)

/-- A run of actions that the guard always admits goes on from a state reached. -/
theorem Reachable.append_run {as : List α} (h : Reachable step guard s s') (hg : ∀ s, ∀ a ∈ as, guard s a)
    (hr : run step s' as = some s'') : Reachable step guard s s'' :=
  h.trans (.of_run hg hr)

/-! ## What a run says -/

variable (step) in
/-- What the steps of a run say, in order. -/
def trace {ε : Type} (events : σ → α → List ε) : σ → List α → List ε
  | _, [] => []
  | s, a :: as => events s a ++ ((step s a).map fun s' => trace events s' as).getD []

theorem trace_cons {ε : Type} {events : σ → α → List ε} {a : α} {as : List α} (ha : step s a = some s') :
    trace step events s (a :: as) = events s a ++ trace step events s' as := by
  rw [trace, ha]
  rfl

/-- A relation between the state and what was said that each admitted step keeps. -/
theorem Along.run_trace {ε : Type} {events : σ → α → List ε} {I : σ → List ε → Prop}
    (hstep : ∀ s h a s', I s h → guard s a → step s a = some s' → I s' (h ++ events s a)) :
    ∀ {as : List α} {s : σ} {h : List ε}, I s h → Along step guard s as → run step s as = some s' →
      I s' (h ++ trace step events s as)
  | [], _, h, hi, _, hr => by
    cases hr
    rwa [trace, List.append_nil]
  | a :: as, s, h, hi, hg, hr => by
    obtain ⟨r, ha, hr⟩ := Option.bind_eq_some_iff.1 hr
    have hrest := run_trace hstep (hstep s h a r hi (hg [] a as s rfl rfl) ha) (hg.tail ha) hr
    rwa [List.append_assoc, ← trace_cons ha] at hrest

/-- A relation between the state and what was said that each step keeps. -/
theorem run_trace {ε : Type} {events : σ → α → List ε} {I : σ → List ε → Prop}
    (hstep : ∀ s h a s', I s h → step s a = some s' → I s' (h ++ events s a)) {as : List α} {s : σ} {h : List ε}
    (hi : I s h) (hr : run step s as = some s') : I s' (h ++ trace step events s as) := by
  have hany : Along step anyStep s as := fun _ _ _ _ _ _ => trivial
  exact hany.run_trace (fun s h a s' hi _ ha => hstep s h a s' hi ha) hi hr

end Lts
