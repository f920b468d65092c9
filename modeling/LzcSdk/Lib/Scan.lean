import Mathlib.Algebra.Ring.Nat
import Mathlib.Data.List.Basic
import Mathlib.Data.List.Induction
import Mathlib.Data.List.TakeWhile
import Mathlib.Tactic.Common
import LzcSdk.Lib.Text

/-!
# Numerals at the front of a text

A reader takes characters from the front of a list and returns what is left of it. `Format.number` reads a numeral, the
longest run of digits, in a format that says the radix, how many digits there may be, whether zeros may lead, and how
large the number may be.

What it reads are the numerals of the format (`number_append`, `exists_of_number`). The digits of a number that fits are
one of them (`numeral_toDigits`), and without leading zeros the only one (`Numeral.eq_toDigits`).
-/

namespace Scan

/-! ## Digits -/

/-- The value of a digit, or of a letter as a digit. -/
def digitValue (c : Char) : Option Nat :=
  if 48 ≤ c.toNat ∧ c.toNat ≤ 57 then some (c.toNat - 48)
  else if 97 ≤ c.toNat ∧ c.toNat ≤ 122 then some (c.toNat - 87)
  else if 65 ≤ c.toNat ∧ c.toNat ≤ 90 then some (c.toNat - 55)
  else none

/-- The value of a digit in a radix. -/
def toDigit (radix : Nat) (c : Char) : Option Nat := (digitValue c).filter (· < radix)

def isDigit (radix : Nat) (c : Char) : Bool := (toDigit radix c).isSome

/-- The number that digits stand for. -/
def value (radix : Nat) (digits : List Char) : Nat :=
  digits.foldl (fun n c => radix * n + (toDigit radix c).getD 0) 0

section Digits

variable {radix d : Nat} {c : Char}

theorem digitValue_digitChar : ∀ d < 16, digitValue d.digitChar = some d := by decide

theorem toDigit_digitChar (hr : radix ≤ 16) (hd : d < radix) : toDigit radix d.digitChar = some d := by
  rw [toDigit, digitValue_digitChar d (by omega), Option.filter_some, if_pos (by simpa using hd)]

theorem isDigit_digitChar (hr : radix ≤ 16) (hd : d < radix) : isDigit radix d.digitChar := by
  rw [isDigit, toDigit_digitChar hr hd]
  rfl

/-- Up to ten, the digits are the decimal ones. -/
theorem toDigit_eq_some (hr : radix ≤ 10) (h : toDigit radix c = some d) : d < radix ∧ d.digitChar = c := by
  rw [toDigit, Option.filter_eq_some_iff] at h
  obtain ⟨hvalue, hd⟩ := h
  have hd : d < radix := of_decide_eq_true hd
  refine ⟨hd, Char.toNat_inj.1 ?_⟩
  rw [Nat.toNat_digitChar_of_lt_ten (by omega)]
  unfold digitValue at hvalue
  split_ifs at hvalue with h1 h2 h3 <;> cases hvalue <;> omega

theorem toDigit_ten (h : c.isDigit) : toDigit 10 c = some (c.toNat - 48) := by
  have hc : 48 ≤ c.toNat ∧ c.toNat ≤ 57 := Char.isDigit_iff_toNat.1 h
  rw [toDigit, digitValue, if_pos hc, Option.filter_some, if_pos (decide_eq_true (by omega))]

theorem isDigit_ten : isDigit 10 c = c.isDigit := by
  cases h : c.isDigit with
  | true =>
    rw [isDigit, toDigit_ten h]
    rfl
  | false =>
    rw [isDigit, Option.isSome_eq_false_iff, Option.isNone_iff_eq_none]
    by_contra hne
    obtain ⟨d, hd⟩ := Option.ne_none_iff_exists'.1 hne
    obtain ⟨hlt, rfl⟩ := toDigit_eq_some le_rfl hd
    rw [Nat.isDigit_digitChar, decide_eq_true hlt] at h
    cases h

/-- A digit is one in a larger radix. -/
theorem isDigit_mono {radix' : Nat} (hr : radix ≤ radix') (h : isDigit radix c) : isDigit radix' c := by
  rw [isDigit, Option.isSome_iff_exists] at h ⊢
  obtain ⟨d, hd⟩ := h
  rw [toDigit, Option.filter_eq_some_iff] at hd
  refine ⟨d, Option.filter_eq_some_iff.2 ⟨hd.1, ?_⟩⟩
  have hlt := hd.2
  simp only [decide_eq_true_eq] at hlt ⊢
  omega

@[simp] theorem value_nil : value radix [] = 0 := rfl

theorem value_concat (digits : List Char) (c : Char) :
    value radix (digits ++ [c]) = radix * value radix digits + (toDigit radix c).getD 0 := by
  rw [value, List.foldl_append]
  rfl

/-- Decimal digits stand for what the library reads in them. -/
theorem value_ten {digits : List Char} (h : ∀ c ∈ digits, c.isDigit) :
    value 10 digits = Nat.ofDigitChars 10 digits 0 := by
  rw [value, Nat.ofDigitChars_eq_foldl]
  refine List.foldl_ext _ _ 0 fun n c hc => ?_
  rw [toDigit_ten (h c hc)]
  rfl

theorem value_toDigits (hb : 1 < radix) (hr : radix ≤ 16) (n : Nat) : value radix (Nat.toDigits radix n) = n := by
  induction n using Nat.base_induction radix hb with
  | single m hm =>
    rw [Nat.toDigits_of_lt_base hm, ← List.nil_append [_], value_concat, toDigit_digitChar hr hm]
    simp
  | digit m k hk hm ih =>
    rw [← Nat.toDigits_append_toDigits hb hm hk, Nat.toDigits_of_lt_base hk, value_concat, ih, toDigit_digitChar hr hk]
    rfl

theorem isDigit_of_mem_toDigits (hb : 1 < radix) (hr : radix ≤ 16) {n : Nat} :
    ∀ c ∈ Nat.toDigits radix n, isDigit radix c := by
  induction n using Nat.base_induction radix hb with
  | single m hm =>
    rw [Nat.toDigits_of_lt_base hm]
    intro c hc
    cases List.mem_singleton.1 hc
    exact isDigit_digitChar hr hm
  | digit m k hk hm ih =>
    rw [← Nat.toDigits_append_toDigits hb hm hk, Nat.toDigits_of_lt_base hk]
    intro c hc
    rcases List.mem_append.1 hc with hc | hc
    · exact ih c hc
    · cases List.mem_singleton.1 hc
      exact isDigit_digitChar hr hk

/-- Only zero is printed with a zero in front. -/
theorem head?_toDigits (hb : 1 < radix) {n : Nat} (h : (Nat.toDigits radix n).head? = some '0') : n = 0 := by
  induction n using Nat.base_induction radix hb with
  | single m hm =>
    rw [Nat.toDigits_of_lt_base hm] at h
    simpa using h
  | digit m k hk hm ih =>
    rw [← Nat.toDigits_append_toDigits hb hm hk, List.head?_append_of_ne_nil _ Nat.toDigits_ne_nil] at h
    exact absurd (ih h) (by omega)

end Digits

/-! ## Formats -/

/-- How a numeral may look: its radix, how many digits it may have, whether zeros may lead, and a bound of its value. -/
structure Format where
  radix : Nat
  maxDigits : Option Nat
  allowZeroPrefix : Bool
  bound : Nat

namespace Format

variable (f : Format)

/-- Read a number off the front of a text, stopping at the first character that is not a digit. -/
def number (cs : List Char) : Option (Nat × List Char) :=
  let digits := cs.takeWhile (isDigit f.radix)
  if digits = [] then none
  else if f.maxDigits.any (· < digits.length) then none
  else if !f.allowZeroPrefix && digits.head? = some '0' && 1 < digits.length then none
  else if value f.radix digits < f.bound then some (value f.radix digits, cs.dropWhile (isDigit f.radix))
  else none

/-- The digits make a number of the format. -/
structure Numeral (digits : List Char) : Prop where
  ne_nil : digits ≠ []
  digit : ∀ c ∈ digits, isDigit f.radix c
  length_le : ∀ m ∈ f.maxDigits, digits.length ≤ m
  head : f.allowZeroPrefix = false → digits.head? = some '0' → digits.length ≤ 1
  lt : value f.radix digits < f.bound

end Format

/-- A text does not go on with a digit. -/
def Ends (radix : Nat) (cs : List Char) : Prop := ∀ c ∈ cs.head?, isDigit radix c = false

section Numeral

variable {f : Format} {digits rest cs : List Char} {n : Nat}

theorem ends_nil (radix : Nat) : Ends radix [] := by
  intro c hc
  cases hc

theorem ends_cons {radix : Nat} {c : Char} (h : isDigit radix c = false) : Ends radix (c :: cs) := by
  rintro c' ⟨⟩
  exact h

theorem Ends.mono {radix radix' : Nat} (hr : radix ≤ radix') (h : Ends radix' cs) : Ends radix cs := by
  intro c hc
  have hno := h c hc
  rw [← Bool.not_eq_true] at hno ⊢
  exact fun hd => hno (isDigit_mono hr hd)

theorem takeWhile_digits {radix : Nat} (h : ∀ c ∈ digits, isDigit radix c) (hrest : Ends radix rest) :
    (digits ++ rest).takeWhile (isDigit radix) = digits ∧ (digits ++ rest).dropWhile (isDigit radix) = rest := by
  rw [List.takeWhile_append_of_pos h, List.dropWhile_append_of_pos h]
  cases rest with
  | nil => simp
  | cons c rest =>
    have hc := hrest c rfl
    simp [hc]

/-- A numeral is read to its end. -/
theorem number_append (h : f.Numeral digits) (hrest : Ends f.radix rest) :
    f.number (digits ++ rest) = some (value f.radix digits, rest) := by
  obtain ⟨htake, hdrop⟩ := takeWhile_digits h.digit hrest
  have hmax : ¬ f.maxDigits.any (· < digits.length) := by
    rw [Option.any_eq_true]
    rintro ⟨m, hm, hlt⟩
    exact absurd (h.length_le m hm) (Nat.not_le.2 (of_decide_eq_true hlt))
  have hhead : ¬ (!f.allowZeroPrefix && digits.head? = some '0' && 1 < digits.length) := by
    simp only [Bool.and_eq_true, Bool.not_eq_true', decide_eq_true_eq, not_and, Nat.not_lt]
    exact fun hz => h.head hz.1 hz.2
  rw [Format.number, htake, hdrop, if_neg h.ne_nil, if_neg hmax, if_neg hhead, if_pos h.lt]

/-- What is read is a numeral, and no digit comes behind it. -/
theorem exists_of_number (h : f.number cs = some (n, rest)) :
    ∃ digits, cs = digits ++ rest ∧ f.Numeral digits ∧ value f.radix digits = n ∧ Ends f.radix rest := by
  unfold Format.number at h
  simp only at h
  split_ifs at h with hnil hmax hhead hlt
  cases h
  refine ⟨cs.takeWhile (isDigit f.radix), List.takeWhile_append_dropWhile.symm, ⟨hnil, ?_, ?_, ?_, hlt⟩, rfl, ?_⟩
  · exact fun c hc => List.mem_takeWhile_imp hc
  · intro m hm
    by_contra hlong
    exact hmax ((Option.any_eq_true _ _).2 ⟨m, hm, decide_eq_true (Nat.not_le.1 hlong)⟩)
  · intro hz hzero
    by_contra hlong
    exact hhead (by simp [hz, hzero, Nat.not_le.1 hlong])
  · intro c hc
    have hno := List.head?_dropWhile_not (isDigit f.radix) cs
    rw [Option.mem_def.1 hc] at hno
    exact hno

/-- Without a digit there is no numeral. -/
theorem number_eq_none (h : Ends f.radix cs) : f.number cs = none := by
  cases hn : f.number cs with
  | none => rfl
  | some r =>
    obtain ⟨digits, rfl, hd, -, -⟩ := exists_of_number hn
    obtain ⟨c, digits, rfl⟩ := List.exists_cons_of_ne_nil hd.ne_nil
    exact absurd (hd.digit c List.mem_cons_self) (by simp [h c rfl])

/-- The digits of a number that fits are a numeral. -/
theorem numeral_toDigits (hb : 1 < f.radix) (hr : f.radix ≤ 16) (hn : n < f.bound)
    (hmax : ∀ m ∈ f.maxDigits, 0 < m ∧ n < f.radix ^ m) : f.Numeral (Nat.toDigits f.radix n) := by
  refine ⟨Nat.toDigits_ne_nil, isDigit_of_mem_toDigits hb hr, fun m hm => ?_, fun _ hzero => ?_, ?_⟩
  · exact (Nat.length_toDigits_le_iff hb (hmax m hm).1).2 (hmax m hm).2
  · rw [head?_toDigits hb hzero, Nat.toDigits_zero]
    exact le_rfl
  · rw [value_toDigits hb hr]
    exact hn

/-- Reading a printed number gives the number. -/
theorem number_toDigits (hb : 1 < f.radix) (hr : f.radix ≤ 16) (hn : n < f.bound)
    (hmax : ∀ m ∈ f.maxDigits, 0 < m ∧ n < f.radix ^ m) (hrest : Ends f.radix rest) :
    f.number (Nat.toDigits f.radix n ++ rest) = some (n, rest) := by
  rw [number_append (numeral_toDigits hb hr hn hmax) hrest, value_toDigits hb hr]

/-- Without leading zeros, decimal digits are those of their value. -/
theorem eq_toDigits {radix : Nat} (hb : 1 < radix) (hr : radix ≤ 10) :
    ∀ {digits : List Char}, digits ≠ [] → (∀ c ∈ digits, isDigit radix c) →
      (digits.head? = some '0' → digits.length ≤ 1) → digits = Nat.toDigits radix (value radix digits) := by
  intro digits
  induction digits using List.reverseRecOn with
  | nil => exact fun h => absurd rfl h
  | append_singleton digits c ih =>
    intro _ hdigit hzero
    obtain ⟨d, hd⟩ := Option.isSome_iff_exists.1 (hdigit c (by simp))
    obtain ⟨hlt, hc⟩ := toDigit_eq_some hr hd
    rw [value_concat, hd, Option.getD_some]
    rcases eq_or_ne digits [] with rfl | hne
    · rw [value_nil, Nat.mul_zero, Nat.zero_add, Nat.toDigits_of_lt_base hlt, hc, List.nil_append]
    · -- more than one digit, so the first one is not zero
      have hlong : 1 < (digits ++ [c]).length := by
        have := List.length_pos_iff.2 hne
        simp only [List.length_append, List.length_singleton]
        omega
      have hhead : digits.head? ≠ some '0' := by
        intro h
        have := hzero (by rw [List.head?_append_of_ne_nil _ hne]; exact h)
        omega
      have heq := ih hne (fun c hc => hdigit c (List.mem_append_left _ hc)) (fun h => absurd h hhead)
      have hpos : 0 < value radix digits := by
        rw [Nat.pos_iff_ne_zero]
        intro hval
        rw [hval, Nat.toDigits_zero] at heq
        exact hhead (by rw [heq]; rfl)
      rw [← Nat.toDigits_append_toDigits hb hpos hlt, ← heq, Nat.toDigits_of_lt_base hlt, hc]

theorem Format.Numeral.eq_toDigits (h : f.Numeral digits) (hb : 1 < f.radix) (hr : f.radix ≤ 10)
    (hz : f.allowZeroPrefix = false) : digits = Nat.toDigits f.radix (value f.radix digits) :=
  Scan.eq_toDigits hb hr h.ne_nil h.digit (h.head hz)

end Numeral

/-! ## Sixteen bits -/

/-- A decimal number of sixteen bits; zeros may lead. -/
def U16 : Format := ⟨10, none, true, UInt16.size⟩

section U16

variable {digits : List Char} {s : String} {v : UInt16}

/-- Decimal digits are read as a number of sixteen bits when they are a numeral. -/
theorem decimal_eq_some : (if digits = [] ∨ digits.any (fun d => !d.isDigit) then none
      else if Nat.ofDigitChars 10 digits 0 < UInt16.size then some (UInt16.ofNat (Nat.ofDigitChars 10 digits 0))
      else none) = some v ↔ U16.Numeral digits ∧ value 10 digits = v.toNat := by
  have hall : (∀ c ∈ digits, isDigit 10 c) ↔ ∀ c ∈ digits, c.isDigit := by simp only [isDigit_ten]
  constructor
  · intro h
    split_ifs at h with hbad hlt
    simp only [not_or, List.any_eq_true, Bool.not_eq_true', not_exists, not_and, Bool.not_eq_false] at hbad
    have hvalue := value_ten hbad.2
    rw [← hvalue] at h hlt
    refine ⟨⟨hbad.1, hall.2 hbad.2, nofun, nofun, hlt⟩, ?_⟩
    rw [← Option.some.inj h, UInt16.toNat_ofNat_of_lt' hlt]
  · rintro ⟨hn, hv⟩
    have hdigits := hall.1 hn.digit
    have hlt : Nat.ofDigitChars 10 digits 0 < UInt16.size := value_ten hdigits ▸ hn.lt
    rw [value_ten hdigits] at hv
    have hgood : ¬ (digits = [] ∨ digits.any (fun d => !d.isDigit)) := by
      simp only [not_or, List.any_eq_true, Bool.not_eq_true', not_exists, not_and, Bool.not_eq_false]
      exact ⟨hn.ne_nil, hdigits⟩
    rw [if_neg hgood, if_pos hlt, hv, UInt16.ofNat_toNat]

/-- A string is read as a number of sixteen bits when it is a numeral, or one with a sign `+`. -/
theorem parseU16?_eq_some : Text.parseU16? s = some v ↔
    ∃ digits, (s.toList = digits ∨ s.toList = '+' :: digits) ∧ U16.Numeral digits ∧ value 10 digits = v.toNat := by
  have hsign : ∀ digits, ¬ U16.Numeral ('+' :: digits) := by
    intro digits h
    exact absurd (h.digit '+' List.mem_cons_self) (by decide)
  unfold Text.parseU16?
  split
  · rename_i d ds hs
    refine decimal_eq_some.trans ⟨fun h => ⟨d :: ds, .inr hs, h⟩, ?_⟩
    rintro ⟨digits, hd | hd, h⟩
    · exact absurd (hd.symm.trans hs ▸ h.1) (hsign _)
    · cases (List.cons.inj (hd.symm.trans hs)).2
      exact h
  · rename_i cs hs
    refine decimal_eq_some.trans ⟨fun h => ⟨s.toList, .inl rfl, h⟩, ?_⟩
    rintro ⟨digits, hd | hd, h⟩
    · rw [hd]
      exact h
    · obtain ⟨d, ds, rfl⟩ := List.exists_cons_of_ne_nil h.1.ne_nil
      exact absurd hd (hs d ds)

end U16

end Scan
