import Mathlib.Data.List.Basic
import Mathlib.Tactic.Common

/-!
# Maps with several values for a key

A multimap lists its entries in order. `getAll` is the values of a key and `others` the entries of the other keys.
`insert` leaves one value for its key (`getAll_insert`) and the others as they are (`others_insert`); `append` adds a
value behind those of its key (`getAll_append`, `others_append`).
-/

/-- The entries of a multimap. -/
structure Multimap (κ ν : Type) where
  entries : List (κ × ν)
  deriving DecidableEq, Repr

namespace Multimap

variable {κ ν : Type} [DecidableEq κ]

/-- The values of a key. -/
def getAll (m : Multimap κ ν) (k : κ) : List ν := m.entries.filterMap fun e => if e.1 = k then some e.2 else none

/-- The entries of the other keys. -/
def others (m : Multimap κ ν) (k : κ) : List (κ × ν) := m.entries.filter (·.1 ≠ k)

/-- Put a value in the place of the first one of its key, and drop the rest; a new key goes to the end. -/
def insertEntry (k : κ) (v : ν) : List (κ × ν) → List (κ × ν)
  | [] => [(k, v)]
  | e :: es => if e.1 = k then (k, v) :: es.filter (·.1 ≠ k) else e :: insertEntry k v es

/-- Replace the values of a key by one. -/
def insert (m : Multimap κ ν) (k : κ) (v : ν) : Multimap κ ν := ⟨insertEntry k v m.entries⟩

/-- Add a value to those of a key. -/
def append (m : Multimap κ ν) (k : κ) (v : ν) : Multimap κ ν := ⟨m.entries ++ [(k, v)]⟩

section

variable {k : κ} {v : ν} {e : κ × ν} {es : List (κ × ν)}

theorem getAll_cons_self : getAll ⟨(k, v) :: es⟩ k = v :: getAll ⟨es⟩ k := List.filterMap_cons_some (if_pos rfl)

theorem getAll_cons_of_ne (h : e.1 ≠ k) : getAll ⟨e :: es⟩ k = getAll ⟨es⟩ k := List.filterMap_cons_none (if_neg h)

theorem getAll_filter_ne : getAll ⟨es.filter (·.1 ≠ k)⟩ k = [] := by
  rw [getAll, List.filterMap_eq_nil_iff]
  intro e he
  have hne : e.1 ≠ k := by simpa using (List.mem_filter.1 he).2
  exact if_neg hne

end

@[simp] theorem getAll_insert (m : Multimap κ ν) (k : κ) (v : ν) : (m.insert k v).getAll k = [v] := by
  obtain ⟨es⟩ := m
  show getAll ⟨insertEntry k v es⟩ k = [v]
  induction es with
  | nil => exact getAll_cons_self
  | cons e es ih =>
    rw [insertEntry]
    split
    · rw [getAll_cons_self, getAll_filter_ne]
    · rename_i hne
      rw [getAll_cons_of_ne hne, ih]

theorem others_insert (m : Multimap κ ν) (k : κ) (v : ν) : (m.insert k v).others k = m.others k := by
  obtain ⟨es⟩ := m
  show (insertEntry k v es).filter _ = es.filter _
  induction es with
  | nil => simp [insertEntry]
  | cons e es ih =>
    rw [insertEntry]
    split
    · rename_i he
      rw [List.filter_cons_of_neg (by simp), List.filter_cons_of_neg (by simp [he]), List.filter_filter]
      simp
    · rename_i hne
      rw [List.filter_cons_of_pos (by simpa using hne), List.filter_cons_of_pos (by simpa using hne), ih]

@[simp] theorem getAll_append (m : Multimap κ ν) (k : κ) (v : ν) : (m.append k v).getAll k = m.getAll k ++ [v] := by
  have hlast : getAll ⟨[(k, v)]⟩ k = [v] := getAll_cons_self
  rw [getAll, append, List.filterMap_append]
  exact congrArg (m.getAll k ++ ·) hlast

theorem others_append (m : Multimap κ ν) (k : κ) (v : ν) : (m.append k v).others k = m.others k := by
  rw [others, append, List.filter_append, List.filter_cons_of_neg (by simp)]
  exact List.append_nil _

/-- The values of a key depend on the entries that are not of another key. -/
theorem getAll_of_others {m m' : Multimap κ ν} {k k' : κ} (hne : k' ≠ k) (h : m.others k = m'.others k) :
    m.getAll k' = m'.getAll k' := by
  have hothers : ∀ m : Multimap κ ν, m.getAll k' = getAll ⟨m.others k⟩ k' := by
    intro m
    rw [getAll, getAll, others, List.filterMap_filter]
    refine List.filterMap_congr fun e _ => ?_
    by_cases he : e.1 = k'
    · have hek : e.1 ≠ k := fun hek => hne (he.symm.trans hek)
      rw [if_pos he, if_pos (by simpa using hek)]
    · rw [if_neg he, ite_self]
  rw [hothers m, hothers m', h]

end Multimap
