import Mathlib.Tactic.Common

/-!
# Calls that return, fail or panic

A call of a safe language ends in one of three ways: it returns a value, it returns an error that the caller sees, or
it panics (an index past the end of a slice, an overflow). `Outcome ε α` keeps the three apart, so that "never panics"
is a theorem about a function and not a convention of its model. Sequencing is `bind`: the first error or panic ends
the whole call.

Slices and indices that the language checks at run time are `Outcome.index`, `Outcome.sliceTo` and `Outcome.slice`;
each panics exactly out of bounds (`sliceTo_of_le`, `slice_append`, `index_append`).
-/

/-- The result of a call: a value, an error, or a panic. -/
inductive Outcome (ε α : Type) where
  | ok (value : α)
  | err (error : ε)
  | panicked
  deriving DecidableEq, Repr

namespace Outcome

variable {ε ε' α β γ : Type}

/-- The first error or panic ends the call. -/
def bind : Outcome ε α → (α → Outcome ε β) → Outcome ε β
  | ok a, f => f a
  | err e, _ => err e
  | panicked, _ => panicked

instance : Monad (Outcome ε) where
  pure := ok
  bind := bind

/-- The value of an option, or the given error, as `ok_or` does. -/
def okOr (e : ε) : Option α → Outcome ε α
  | some a => ok a
  | none => err e

/-- The call returned a value. -/
def isOk : Outcome ε α → Bool
  | ok _ => true
  | _ => false

@[simp] theorem pure_eq (a : α) : (pure a : Outcome ε α) = ok a := rfl

@[simp] theorem ok_bind (a : α) (f : α → Outcome ε β) : (ok a >>= f) = f a := rfl

@[simp] theorem err_bind (e : ε) (f : α → Outcome ε β) : (err e >>= f) = err e := rfl

@[simp] theorem panicked_bind (f : α → Outcome ε β) : ((panicked : Outcome ε α) >>= f) = panicked := rfl

@[simp] theorem okOr_some (e : ε) (a : α) : okOr e (some a) = ok a := rfl

/-- A sequence returns a value when both parts do. -/
theorem bind_eq_ok {x : Outcome ε α} {f : α → Outcome ε β} {b : β} :
    (x >>= f) = ok b ↔ ∃ a, x = ok a ∧ f a = ok b := by
  cases x <;> simp

/-- The same after a part that returns nothing. -/
theorem unit_bind_eq_ok {x : Outcome ε Unit} {f : Unit → Outcome ε β} {b : β} :
    (x >>= f) = ok b ↔ x = ok () ∧ f () = ok b := by
  cases x <;> simp

/-- A sequence panics when its first part does, or its second after the first returned. -/
theorem bind_eq_panicked {x : Outcome ε α} {f : α → Outcome ε β} :
    (x >>= f) = panicked ↔ x = panicked ∨ ∃ a, x = ok a ∧ f a = panicked := by
  cases x <;> simp

theorem okOr_eq_ok {e : ε} {o : Option α} {a : α} : okOr e o = ok a ↔ o = some a := by
  cases o <;> simp [okOr]

/-- A sequence fails when its first part does, or its second after the first returned. -/
theorem bind_eq_err {x : Outcome ε α} {f : α → Outcome ε β} {e : ε} :
    (x >>= f) = err e ↔ x = err e ∨ ∃ a, x = ok a ∧ f a = err e := by
  cases x <;> simp

theorem okOr_eq_err {e e' : ε} {o : Option α} : okOr e o = err e' ↔ o = none ∧ e = e' := by
  cases o <;> simp [okOr]

/-- Pair the value of a call with something. -/
theorem bind_ok_eq_ok {x : Outcome ε α} {f : α → β} {b : β} :
    (x >>= fun a => ok (f a)) = ok b ↔ ∃ a, x = ok a ∧ f a = b := by
  cases x <;> simp

theorem okOr_ne_panicked (e : ε) (o : Option α) : okOr e o ≠ panicked := by
  cases o <;> simp [okOr]

/-- A call that neither returns nor panics returns an error. -/
theorem isErr_of_ne {x : Outcome ε α} (hok : ∀ a, x ≠ ok a) (hp : x ≠ panicked) : ∃ e, x = err e := by
  cases x with
  | ok a => exact absurd rfl (hok a)
  | err e => exact ⟨e, rfl⟩
  | panicked => exact absurd rfl hp

/-! ## Checked slices -/

/-- `xs[i]`: panics past the end. -/
def index (xs : List α) (i : Nat) : Outcome ε α :=
  match xs[i]? with
  | some x => ok x
  | none => panicked

/-- `xs[..n]`: panics when `n` is past the end. -/
def sliceTo (xs : List α) (n : Nat) : Outcome ε (List α) :=
  if n ≤ xs.length then ok (xs.take n) else panicked

/-- `xs[lo..hi]`: panics when `hi` is past the end, or before `lo`. -/
def slice (xs : List α) (lo hi : Nat) : Outcome ε (List α) :=
  if lo ≤ hi ∧ hi ≤ xs.length then ok ((xs.take hi).drop lo) else panicked

@[simp] theorem index_cons_zero (x : α) (xs : List α) : (index (x :: xs) 0 : Outcome ε α) = ok x := rfl

@[simp] theorem index_cons_succ (x : α) (xs : List α) (i : Nat) :
    (index (x :: xs) (i + 1) : Outcome ε α) = index xs i := by
  simp [index]

theorem sliceTo_of_le {xs : List α} {n : Nat} (h : n ≤ xs.length) :
    (sliceTo xs n : Outcome ε (List α)) = ok (xs.take n) := by
  simp [sliceTo, h]

/-- The front part of a concatenation. -/
theorem sliceTo_append {xs : List α} {n : Nat} (h : xs.length = n) (ys : List α) :
    (sliceTo (xs ++ ys) n : Outcome ε (List α)) = ok xs := by
  rw [sliceTo_of_le (by simp [h]), List.take_left' h]

/-- The end of the front part of a concatenation. -/
theorem slice_append {xs : List α} {lo : Nat} (h : lo ≤ xs.length) (ys : List α) :
    (slice (xs ++ ys) lo xs.length : Outcome ε (List α)) = ok (xs.drop lo) := by
  have hle : lo ≤ xs.length ∧ xs.length ≤ (xs ++ ys).length := ⟨h, by rw [List.length_append]; omega⟩
  rw [slice, if_pos hle, List.take_left' rfl]

/-- An entry of the back part of a concatenation. -/
theorem index_append {xs : List α} {n i : Nat} (h : xs.length + i = n) (ys : List α) :
    (index (xs ++ ys) n : Outcome ε α) = index ys i := by
  subst h
  simp [index, List.getElem?_append_right]

end Outcome
