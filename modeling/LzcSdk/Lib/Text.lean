import Mathlib.Data.List.TakeDrop
import Mathlib.Data.List.TakeWhile
import Mathlib.Tactic.Common

/-!
# Strings as UTF-8 bytes and as characters

A string is a sequence of Unicode scalar values whose UTF-8 bytes travel on the wire. `Text.bytes` and
`Text.fromUtf8?` go from strings to bytes and back, and are inverse to each other (`fromUtf8?_bytes`,
`bytes_of_fromUtf8?`), so a decoded string is sent back with the bytes it came with. The searches (`endsWith`,
`stripSuffix?`, `split`) work on characters; on UTF-8 this is the same as searching the bytes.

`isWhitespace` is the Unicode property `White_Space` and `isControl` the general category `Cc`.
-/

namespace Text

/-- The UTF-8 bytes of a string. -/
def bytes (s : String) : List UInt8 := s.toByteArray.data.toList

/-- The string with these UTF-8 bytes, if they are valid UTF-8. -/
def fromUtf8? (bs : List UInt8) : Option String := String.fromUTF8? ⟨bs.toArray⟩

/-- The length of a string in bytes. -/
def len (s : String) : Nat := (bytes s).length

theorem fromUtf8?_bytes (s : String) : fromUtf8? (bytes s) = some s := by
  show String.fromUTF8? s.toByteArray = some s
  unfold String.fromUTF8?
  rw [dif_pos s.isValidUTF8]
  rfl

theorem bytes_of_fromUtf8? {bs : List UInt8} {s : String} (h : fromUtf8? bs = some s) : bytes s = bs := by
  unfold fromUtf8? String.fromUTF8? at h
  split at h
  · cases h; rfl
  · cases h

theorem bytes_inj {s t : String} (h : bytes s = bytes t) : s = t := by
  have hs := fromUtf8?_bytes s
  rw [h, fromUtf8?_bytes t] at hs
  exact (Option.some.inj hs).symm

@[simp] theorem bytes_empty : bytes "" = [] := rfl

/-- Only the empty string has no bytes. -/
theorem bytes_eq_nil {s : String} : bytes s = [] ↔ s = "" :=
  ⟨fun h => bytes_inj (h.trans bytes_empty.symm), fun h => h ▸ bytes_empty⟩

theorem len_eq_zero {s : String} : len s = 0 ↔ s = "" := by
  rw [len, List.length_eq_zero_iff, bytes_eq_nil]

theorem bytes_ofList (cs : List Char) : bytes (String.ofList cs) = cs.flatMap String.utf8EncodeChar := by
  unfold bytes
  simp [List.utf8Encode]

/-- ASCII characters have one byte each. -/
theorem len_ofList {cs : List Char} (h : ∀ c ∈ cs, c.toNat ≤ 127) : len (String.ofList cs) = cs.length := by
  rw [len, bytes_ofList]
  induction cs with
  | nil => rfl
  | cons c cs ih =>
    have hc : c.utf8Size = 1 := Char.utf8Size_eq_one_iff.2 (h c List.mem_cons_self)
    rw [List.flatMap_cons, List.length_append, String.length_utf8EncodeChar, hc,
      ih fun c' hc' => h c' (List.mem_cons_of_mem c hc'), List.length_cons, Nat.add_comm]

/-! ## Character classes -/

/-- The Unicode property `White_Space`. -/
def isWhitespace (c : Char) : Bool :=
  let n := c.toNat
  (0x09 ≤ n && n ≤ 0x0D) || n == 0x20 || n == 0x85 || n == 0xA0 || n == 0x1680 || (0x2000 ≤ n && n ≤ 0x200A) ||
    n == 0x2028 || n == 0x2029 || n == 0x202F || n == 0x205F || n == 0x3000

/-- The Unicode general category `Cc`. -/
def isControl (c : Char) : Bool :=
  let n := c.toNat
  n ≤ 0x1F || (0x7F ≤ n && n ≤ 0x9F)

/-! ## Suffixes -/

/-- `s` ends in `suffix`. -/
def endsWith (s suffix : String) : Bool := suffix.toList.isSuffixOf s.toList

/-- What stands before `suffix`, if `s` ends in it. -/
def stripSuffix? (s suffix : String) : Option String :=
  if endsWith s suffix then some (String.ofList (s.toList.take (s.toList.length - suffix.toList.length))) else none

theorem endsWith_iff {s suffix : String} : endsWith s suffix = true ↔ ∃ p, s = p ++ suffix := by
  unfold endsWith
  rw [List.isSuffixOf_iff_suffix]
  constructor
  · rintro ⟨p, hp⟩
    exact ⟨String.ofList p, String.toList_injective (by simp [hp])⟩
  · rintro ⟨p, rfl⟩
    exact ⟨p.toList, by simp⟩

theorem stripSuffix?_append (p suffix : String) : stripSuffix? (p ++ suffix) suffix = some p := by
  have h : endsWith (p ++ suffix) suffix = true := endsWith_iff.2 ⟨p, rfl⟩
  rw [stripSuffix?, if_pos h]
  exact congrArg some (String.toList_injective (by simp))

theorem stripSuffix?_eq_some {s suffix p : String} (h : stripSuffix? s suffix = some p) : s = p ++ suffix := by
  by_cases hs : endsWith s suffix = true
  · obtain ⟨q, rfl⟩ := endsWith_iff.1 hs
    rw [stripSuffix?_append] at h
    rw [Option.some.inj h]
  · rw [stripSuffix?, if_neg hs] at h
    cases h

/-! ## Fields -/

/-- The fields of `s` between the separators `c`; there is always one more than separators. -/
def split (s : String) (c : Char) : List String := (s.toList.splitOn c).map String.ofList

/-- What stands before the last `c`, and what stands behind it. -/
def rsplitOnce? (s : String) (c : Char) : Option (String × String) :=
  match s.toList.reverse.span (· ≠ c) with
  | (_, []) => none
  | (after, _ :: before) => some (String.ofList before.reverse, String.ofList after.reverse)

/-- A decimal number of sixteen bits; it may have a sign `+` and leading zeros. -/
def parseU16? (s : String) : Option UInt16 :=
  let digits := match s.toList with
    | '+' :: d :: ds => d :: ds
    | cs => cs
  if digits = [] ∨ digits.any (fun d => !d.isDigit) then none
  else
    let n := digits.foldl (fun n d => 10 * n + (d.toNat - '0'.toNat)) 0
    if n < UInt16.size then some (UInt16.ofNat n) else none

/-- Two fields without the separator, joined by it, are split again. -/
theorem split_pair {a b : String} {c : Char} (ha : c ∉ a.toList) (hb : c ∉ b.toList) :
    split (a ++ String.singleton c ++ b) c = [a, b] := by
  have hl : (a ++ String.singleton c ++ b).toList = [c].intercalate [a.toList, b.toList] := by
    simp [List.intercalate]
  have hmem : ∀ l ∈ [a.toList, b.toList], c ∉ l := by
    intro l hl
    simp only [List.mem_cons, List.not_mem_nil, or_false] at hl
    rcases hl with rfl | rfl
    · exact ha
    · exact hb
  rw [split, hl, List.splitOn_intercalate c hmem (by simp)]
  simp

/-- A string with exactly two fields is these, joined by the separator. -/
theorem eq_of_split_pair {s a b : String} {c : Char} (h : split s c = [a, b]) :
    s = a ++ String.singleton c ++ b := by
  obtain ⟨x, y, hxy⟩ : ∃ x y, s.toList.splitOn c = [x, y] ∧ String.ofList x = a ∧ String.ofList y = b := by
    unfold split at h
    match hs : s.toList.splitOn c, h with
    | [x, y], h => exact ⟨x, y, rfl, by simpa using h⟩
  obtain ⟨hs, rfl, rfl⟩ := hxy
  have hjoin : [c].intercalate (s.toList.splitOn c) = s.toList := List.intercalate_splitOn c
  rw [hs] at hjoin
  exact String.toList_injective (by rw [← hjoin]; simp [List.intercalate])

/-- A list is cut at the first entry of a kind. -/
theorem span_ne {α : Type} [DecidableEq α] {c : α} {xs : List α} (hxs : c ∉ xs) (ys : List α) :
    (xs ++ c :: ys).span (· ≠ c) = (xs, c :: ys) := by
  have hne : ∀ x ∈ xs, decide (x ≠ c) = true := fun x hx => decide_eq_true fun h => hxs (h ▸ hx)
  rw [List.span_eq_takeWhile_dropWhile, List.takeWhile_append_of_pos hne, List.dropWhile_append_of_pos hne]
  simp

/-- There is one way to cut a list at the first entry of a kind. -/
theorem append_cons_inj {α : Type} [DecidableEq α] {c : α} {xs xs' ys ys' : List α} (hxs : c ∉ xs) (hxs' : c ∉ xs')
    (h : xs ++ c :: ys = xs' ++ c :: ys') : xs = xs' ∧ ys = ys' := by
  have hspan := span_ne hxs ys
  rw [h, span_ne hxs' ys'] at hspan
  obtain ⟨hbefore, hafter⟩ := Prod.mk.inj hspan
  exact ⟨hbefore.symm, (List.cons.inj hafter).2.symm⟩

/-- The last separator cuts a string in two. -/
theorem rsplitOnce?_eq_some {s before after : String} {c : Char} : rsplitOnce? s c = some (before, after) ↔
    s.toList = before.toList ++ c :: after.toList ∧ c ∉ after.toList := by
  constructor
  · intro h
    unfold rsplitOnce? at h
    rw [List.span_eq_takeWhile_dropWhile] at h
    split at h
    · cases h
    · rename_i as x bs hspan
      cases h
      obtain ⟨htake, hdrop⟩ := Prod.mk.inj hspan
      have hx : x = c := by
        have hno := List.head?_dropWhile_not (fun y => decide (y ≠ c)) s.toList.reverse
        rw [hdrop] at hno
        simpa using hno
      have hall : s.toList.reverse = as ++ x :: bs := by
        rw [← htake, ← hdrop, List.takeWhile_append_dropWhile]
      constructor
      · rw [← List.reverse_reverse s.toList, hall, hx]
        simp
      · rw [String.toList_ofList, List.mem_reverse, ← htake]
        intro hc
        simpa using List.mem_takeWhile_imp hc
  · rintro ⟨hs, hc⟩
    rw [rsplitOnce?, hs, List.reverse_append, List.reverse_cons, List.append_assoc, List.singleton_append,
      span_ne (by simpa using hc)]
    simp

end Text
