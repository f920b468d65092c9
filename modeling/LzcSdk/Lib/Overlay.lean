import Mathlib.Data.List.Basic
import Mathlib.Tactic.Common

/-!
# Writing over the front of a buffer

`overlay` writes a list over the front of a buffer, as much of it as fits, and leaves the rest of the buffer as it is;
`layers` writes several lists one after another. An entry of the result is that of the last list that reaches it, or
the buffer's own (`getElem?_layers`), so two series of lists leave the same behind a last one exactly when they agree on
every entry that this one does not reach (`overlay_layers_eq_iff`).
-/

namespace Overlay

variable {α : Type} {buffer source : List α} {i : Nat}

/-- Write a list over the front of a buffer. -/
def overlay (buffer source : List α) : List α :=
  source.take (min buffer.length source.length) ++ buffer.drop (min buffer.length source.length)

@[simp] theorem length_overlay (buffer source : List α) : (overlay buffer source).length = buffer.length := by
  simp only [overlay, List.length_append, List.length_take, List.length_drop]
  omega

/-- An entry is the one written, or else the old one. -/
theorem getElem?_overlay (hi : i < buffer.length) : (overlay buffer source)[i]? = source[i]?.or buffer[i]? := by
  unfold overlay
  by_cases hs : i < source.length
  · have hm : i < (source.take (min buffer.length source.length)).length := by
      rw [List.length_take]
      omega
    rw [List.getElem?_append_left hm, List.getElem?_take_of_lt (by omega), List.getElem?_eq_getElem hs]
    rfl
  · have hmin : min buffer.length source.length = source.length := by omega
    rw [hmin, List.take_length, List.getElem?_append_right (by omega), List.getElem?_drop,
      List.getElem?_eq_none (by omega : source.length ≤ i), Nat.add_sub_cancel' (by omega)]
    rfl

theorem overlay_nil (buffer : List α) : overlay buffer [] = buffer := by simp [overlay]

/-- Write several lists. -/
def layers (buffer : List α) (sources : List (List α)) : List α := sources.foldl overlay buffer

@[simp] theorem layers_nil (buffer : List α) : layers buffer [] = buffer := rfl

@[simp] theorem layers_cons (buffer source : List α) (sources : List (List α)) :
    layers buffer (source :: sources) = layers (overlay buffer source) sources := rfl

theorem length_layers (buffer : List α) (sources : List (List α)) : (layers buffer sources).length = buffer.length := by
  induction sources generalizing buffer with
  | nil => rfl
  | cons source sources ih => rw [layers_cons, ih, length_overlay]

/-- The entry of the last list that reaches an index. -/
def top : List (List α) → Nat → Option α
  | [], _ => none
  | source :: sources, i => (top sources i).or source[i]?

/-- **What several lists leave of a buffer**: the last one that reaches an entry, or what was there before. -/
theorem getElem?_layers (sources : List (List α)) (hi : i < buffer.length) :
    (layers buffer sources)[i]? = (top sources i).or buffer[i]? := by
  induction sources generalizing buffer with
  | nil => rfl
  | cons source sources ih =>
    rw [layers_cons, ih (by rw [length_overlay]; exact hi), getElem?_overlay hi, top, Option.or_assoc]

/-- Two series of lists leave the same behind a last list exactly when they agree past its end. -/
theorem overlay_layers_eq_iff (xs ys : List (List α)) (buffer source : List α) :
    overlay (layers buffer xs) source = overlay (layers buffer ys) source ↔
      ∀ i, source.length ≤ i → i < buffer.length → (top xs i).or buffer[i]? = (top ys i).or buffer[i]? := by
  have entry : ∀ (sources : List (List α)) (i : Nat), i < buffer.length →
      (overlay (layers buffer sources) source)[i]? = source[i]?.or ((top sources i).or buffer[i]?) := by
    intro sources i hi
    rw [getElem?_overlay (by rw [length_layers]; exact hi), getElem?_layers sources hi]
  constructor
  · intro h i hs hi
    have hx := entry xs i hi
    rw [h, entry ys i hi, List.getElem?_eq_none hs] at hx
    exact hx.symm
  · intro h
    apply List.ext_getElem?
    intro i
    by_cases hi : i < buffer.length
    · rw [entry xs i hi, entry ys i hi]
      by_cases hs : source.length ≤ i
      · rw [h i hs hi]
      · rw [List.getElem?_eq_getElem (by omega)]
        rfl
    · rw [List.getElem?_eq_none, List.getElem?_eq_none]
      · rw [length_overlay, length_layers]
        omega
      · rw [length_overlay, length_layers]
        omega

end Overlay
