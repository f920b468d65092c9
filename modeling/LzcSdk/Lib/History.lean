import Mathlib.Data.List.Basic
import Mathlib.Logic.Function.Basic
import Mathlib.Tactic.Common

/-!
# Histories

A history is a list of events in the order in which they happened, each with the task it belongs to. `of` is what one
task did, `lastOf` the last thing of a kind that any task did, and `Each` says of every event that it happened under a
condition on the events before it. The three are computed over appended events (`of_note_self`, `of_note_of_ne`,
`lastOf_note`, `each_append`); a relation between what a task did and where it is goes on with it (`of_update`).
-/

namespace History

variable {τ ε β : Type}

/-- The events of one task, with its name. -/
def note (t : τ) (es : List ε) : List (τ × ε) := es.map fun e => (t, e)

/-- The last event of a kind. -/
def lastOf (kind : ε → Option β) (h : List (τ × ε)) : Option β := (h.filterMap fun e => kind e.2).getLast?

/-- Each event happens under a condition on the events before it. -/
def Each {α : Type} (P : List α → α → Prop) (xs : List α) : Prop :=
  ∀ before x after, xs = before ++ x :: after → P before x

/-! ## Conditions on what came before -/

section Each

variable {α : Type} {P Q : List α → α → Prop} {x : α} {xs ys : List α}

@[simp] theorem each_nil : Each P [] := by
  intro before x after h
  exact absurd h.symm (by simp)

@[simp] theorem each_cons : Each P (x :: xs) ↔ P [] x ∧ Each (fun before => P (x :: before)) xs := by
  constructor
  · intro h
    refine ⟨h [] x xs rfl, fun before y after hxs => ?_⟩
    exact h (x :: before) y after (by rw [hxs]; rfl)
  · rintro ⟨hx, hxs⟩ before y after h
    cases before with
    | nil => cases h; exact hx
    | cons z before =>
      obtain ⟨rfl, hrest⟩ := List.cons.inj h
      exact hxs before y after hrest

theorem each_append : Each P (xs ++ ys) ↔ Each P xs ∧ Each (fun before => P (xs ++ before)) ys := by
  induction xs generalizing P with
  | nil => simp
  | cons x xs ih =>
    rw [List.cons_append, each_cons, ih, each_cons, and_assoc]
    rfl

/-- A condition that an event meets whatever came before. -/
theorem each_of_forall (h : ∀ x ∈ xs, ∀ before, P before x) : Each P xs := by
  rintro before x after rfl
  exact h x (List.mem_append_right _ List.mem_cons_self) before

end Each

/-- New events of one task that meet the condition whatever came before. -/
theorem each_note {R : List (τ × ε) → τ × ε → Prop} {t : τ} {es : List ε} (h : ∀ e ∈ es, ∀ before, R before (t, e)) :
    Each R (note t es) := by
  apply each_of_forall
  rintro x hx before
  obtain ⟨e, he, rfl⟩ := List.mem_map.1 hx
  exact h e he before

/-- An event of two lists in a row is in the first or in the second. -/
theorem append_eq_split {α : Type} {x : α} {xs ys before after : List α} (h : xs ++ ys = before ++ x :: after) :
    (∃ rest, xs = before ++ x :: rest ∧ after = rest ++ ys) ∨
      ∃ more, before = xs ++ more ∧ ys = more ++ x :: after := by
  rcases List.append_eq_append_iff.1 h with ⟨more, hbefore, hys⟩ | ⟨rest, hxs, hrest⟩
  · exact .inr ⟨more, hbefore, hys⟩
  · cases rest with
    | nil => exact .inr ⟨[], by rw [hxs, List.append_nil, List.append_nil], hrest.symm⟩
    | cons y rest =>
      obtain ⟨rfl, hafter⟩ := List.cons.inj hrest
      exact .inl ⟨rest, hxs, hafter⟩

/-! ## Projections -/

theorem note_append (t : τ) (es es' : List ε) : note t (es ++ es') = note t es ++ note t es' := List.map_append

/-- The events of one task are all its own. -/
theorem note_eq_split {t u : τ} {e : ε} {es : List ε} {before after : List (τ × ε)}
    (h : note t es = before ++ (u, e) :: after) :
    u = t ∧ ∃ as bs, es = as ++ e :: bs ∧ before = note t as ∧ after = note t bs := by
  obtain ⟨as, rest, hes, hbefore, hrest⟩ := List.map_eq_append_iff.1 h
  obtain ⟨e', bs, rfl, he, hafter⟩ := List.map_eq_cons_iff.1 hrest
  cases he
  exact ⟨rfl, as, bs, hes, hbefore.symm, hafter.symm⟩

section Of

variable [DecidableEq τ] {t u : τ} {e : ε} {es : List ε} {h : List (τ × ε)}

/-- What one task did. -/
def of (h : List (τ × ε)) (t : τ) : List ε := h.filterMap fun e => if e.1 = t then some e.2 else none

@[simp] theorem of_append (h' : List (τ × ε)) : of (h ++ h') t = of h t ++ of h' t := List.filterMap_append

theorem of_cons_self : of ((t, e) :: h) t = e :: of h t := List.filterMap_cons_some (if_pos rfl)

theorem of_note : of (note t es) t = es := by
  rw [of, note, List.filterMap_map]
  simp

theorem of_note_ne (hne : u ≠ t) : of (note t es) u = [] := by
  rw [of, note, List.filterMap_map]
  simp [Ne.symm hne]

theorem mem_of : e ∈ of h t ↔ (t, e) ∈ h := by
  rw [of, List.mem_filterMap]
  constructor
  · rintro ⟨⟨u, e'⟩, hmem, he⟩
    by_cases hu : u = t
    · rw [if_pos hu] at he
      cases he
      exact hu ▸ hmem
    · rw [if_neg hu] at he
      cases he
  · intro hmem
    exact ⟨(t, e), hmem, if_pos rfl⟩

/-- The events are added to what the task did. -/
theorem of_note_self : of (h ++ note t es) t = of h t ++ es := by
  rw [of_append, of_note]

/-- What the others did stays as it is. -/
theorem of_note_of_ne (hne : u ≠ t) : of (h ++ note t es) u = of h u := by
  rw [of_append, of_note_ne hne, List.append_nil]

/-- What every task did fits its place, also after one task went to another place and did something. -/
theorem of_update {P : Type} {Story : P → List ε → Prop} {phase : τ → P} {p : P} (hall : ∀ u, Story (phase u) (of h u))
    (hp : Story p (of h t ++ es)) (u : τ) : Story (Function.update phase t p u) (of (h ++ note t es) u) := by
  rcases eq_or_ne u t with rfl | hne
  · rw [Function.update_self, of_note_self]
    exact hp
  · rw [Function.update_of_ne hne, of_note_of_ne hne]
    exact hall u

end Of

section Last

variable {kind : ε → Option β} {t : τ} {es : List ε} {h : List (τ × ε)} {b : β}

/-- The last of the new events of the kind, or else the last of the old ones. -/
theorem lastOf_note : lastOf kind (h ++ note t es) = ((es.filterMap kind).getLast?).or (lastOf kind h) := by
  rw [lastOf, List.filterMap_append, List.getLast?_append, note, List.filterMap_map]
  rfl

/-- The last event of the kind from this one on. -/
theorem lastOf_split {before after : List (τ × ε)} {e : ε} (he : kind e = some b) :
    lastOf kind (before ++ (t, e) :: after) = (lastOf kind after).or (some b) := by
  have hcons : ((t, e) :: after).filterMap (fun x => kind x.2) = [b] ++ after.filterMap fun x => kind x.2 :=
    List.filterMap_cons_some he
  rw [lastOf, lastOf, List.filterMap_append, hcons, List.getLast?_append, List.getLast?_append]
  cases (after.filterMap fun x => kind x.2).getLast? <;> rfl

/-- The last event of a kind did happen. -/
theorem exists_of_lastOf (hb : lastOf kind h = some b) : ∃ t e, (t, e) ∈ h ∧ kind e = some b := by
  obtain ⟨⟨t, e⟩, hmem, he⟩ := List.mem_filterMap.1 (List.mem_of_getLast? hb)
  exact ⟨t, e, hmem, he⟩

end Last

end History
