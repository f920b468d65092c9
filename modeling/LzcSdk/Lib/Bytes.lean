import Mathlib.Tactic.Common

/-!
# Fixed-width fields

Sixteen-bit fields travel as two bytes, the high one first: `beBytes` and `ofBeBytes` go there and back. A field of
`n` bytes is a vector, whose length cannot be wrong; `vector?` takes a byte string of exactly that length.
-/

namespace Bytes

/-- The two bytes of a sixteen-bit value, high byte first. -/
def beBytes (v : UInt16) : List UInt8 := [UInt8.ofNat (v.toNat / 256), UInt8.ofNat (v.toNat % 256)]

/-- The sixteen-bit value of two bytes, high byte first. -/
def ofBeBytes (hi lo : UInt8) : UInt16 := UInt16.ofNat (hi.toNat * 256 + lo.toNat)

@[simp] theorem length_beBytes (v : UInt16) : (beBytes v).length = 2 := rfl

theorem ofBeBytes_beBytes (v : UInt16) :
    ofBeBytes (UInt8.ofNat (v.toNat / 256)) (UInt8.ofNat (v.toNat % 256)) = v := by
  have hv := v.toNat_lt
  apply UInt16.toNat_inj.1
  simp only [ofBeBytes, UInt16.toNat_ofNat', UInt8.toNat_ofNat']
  omega

theorem toNat_ofBeBytes (hi lo : UInt8) : (ofBeBytes hi lo).toNat = hi.toNat * 256 + lo.toNat := by
  have hhi := hi.toNat_lt
  have hlo := lo.toNat_lt
  simp only [ofBeBytes, UInt16.toNat_ofNat']
  omega

theorem beBytes_ofBeBytes (hi lo : UInt8) : beBytes (ofBeBytes hi lo) = [hi, lo] := by
  have hlo := lo.toNat_lt
  rw [beBytes, toNat_ofBeBytes, List.cons.injEq, List.cons.injEq]
  refine ⟨?_, ?_, rfl⟩
  · rw [show (hi.toNat * 256 + lo.toNat) / 256 = hi.toNat by omega, UInt8.ofNat_toNat]
  · rw [show (hi.toNat * 256 + lo.toNat) % 256 = lo.toNat by omega, UInt8.ofNat_toNat]

/-- The vector with these entries, if there are `n` of them. -/
def vector? {α : Type} (n : Nat) (xs : List α) : Option (Vector α n) :=
  if h : xs.length = n then some ⟨xs.toArray, by simpa using h⟩ else none

theorem vector?_toList {α : Type} {n : Nat} (v : Vector α n) : vector? n v.toList = some v := by
  rw [vector?, dif_pos (by simp)]
  exact congrArg some (Vector.toList_inj.1 rfl)

/-- A byte string with at least `n` bytes starts with a vector of `n`. -/
theorem exists_vector_append {α : Type} {n : Nat} {xs : List α} (h : n ≤ xs.length) :
    ∃ (v : Vector α n) (ys : List α), xs = v.toList ++ ys :=
  ⟨⟨(xs.take n).toArray, by simp [h]⟩, xs.drop n, (List.take_append_drop n xs).symm⟩

end Bytes
