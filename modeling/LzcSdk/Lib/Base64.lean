import Mathlib.Tactic.Common

/-!
# Base64 without padding

The unpadded standard alphabet of base64: three bytes make four letters, one or two bytes left over make two or three.
`Engine` is what a program relies on — an encoder and a decoder with the laws between them: the encoder writes letters
of the alphabet only, decoding undoes encoding, and the decoder accepts nothing but encodings (no padding, no
impossible length, no non-zero trailing bit). The laws are fields, so an engine without them cannot be built.

`standardNoPad` is the engine itself. Its decoder is one branch per length modulo four (`decodeChars`); the two
directions are `decodeChars_encodeChars` and `encodeChars_of_decodeChars`.
-/

namespace Base64

/-- `A`–`Z`, `a`–`z`, `0`–`9`, `+` and `/`: the letter for each value below `64`. -/
def alphabet : List Char := "ABCDEFGHIJKLMNOPQRSTUVWXYZabcdefghijklmnopqrstuvwxyz0123456789+/".toList

/-- An unpadded base64 engine. -/
structure Engine where
  encode : List UInt8 → String
  decode : String → Option (List UInt8)
  encode_nil : encode [] = ""
  mem_alphabet : ∀ {bs : List UInt8} {c : Char}, c ∈ (encode bs).toList → c ∈ alphabet
  decode_encode : ∀ bs : List UInt8, decode (encode bs) = some bs
  encode_of_decode : ∀ {s : String} {bs : List UInt8}, decode s = some bs → encode bs = s

namespace Engine

variable (b64 : Engine)

theorem encode_inj {bs cs : List UInt8} (h : b64.encode bs = b64.encode cs) : bs = cs := by
  have hd := b64.decode_encode bs
  rw [h, b64.decode_encode cs] at hd
  exact (Option.some.inj hd).symm

/-- Only the empty byte string has the empty encoding. -/
theorem encode_eq_empty {bs : List UInt8} : b64.encode bs = "" ↔ bs = [] :=
  ⟨fun h => b64.encode_inj (h.trans b64.encode_nil.symm), fun h => h ▸ b64.encode_nil⟩

/-- A character outside the alphabet is in no encoding. -/
theorem not_mem_encode {c : Char} (hc : c ∉ alphabet) (bs : List UInt8) : c ∉ (b64.encode bs).toList :=
  fun h => hc (b64.mem_alphabet h)

end Engine

/-! ## Letters -/

/-- The letter of a value below `64`. -/
def letter (n : Nat) : Char := alphabet.getD n 'A'

/-- The value of a letter. -/
def value? (c : Char) : Option Nat := alphabet.idxOf? c

theorem letter_mem {n : Nat} (h : n < 64) : letter n ∈ alphabet := by
  have hn : n < alphabet.length := h
  rw [letter, List.getD_eq_getElem?_getD, List.getElem?_eq_getElem hn]
  exact List.getElem_mem hn

theorem value?_letter {n : Nat} (h : n < 64) : value? (letter n) = some n := by
  revert n
  decide +kernel

theorem value?_eq_some {c : Char} {n : Nat} (h : value? c = some n) : n < 64 ∧ letter n = c := by
  obtain ⟨hn, hc, -⟩ := List.idxOf?_eq_some_iff.1 h
  refine ⟨hn, ?_⟩
  rw [letter, List.getD_eq_getElem?_getD, List.getElem?_eq_getElem hn]
  simpa using hc

/-! ## The codec -/

/-- Three bytes are four letters; what is left over is padded with zero bits. -/
def encodeChars : List UInt8 → List Char
  | [] => []
  | [a] => [letter (a.toNat / 4), letter (a.toNat % 4 * 16)]
  | [a, b] => [letter (a.toNat / 4), letter (a.toNat % 4 * 16 + b.toNat / 16), letter (b.toNat % 16 * 4)]
  | a :: b :: c :: rest =>
    letter (a.toNat / 4) :: letter (a.toNat % 4 * 16 + b.toNat / 16) ::
      letter (b.toNat % 16 * 4 + c.toNat / 64) :: letter (c.toNat % 64) :: encodeChars rest

/-- Four letters are three bytes; two or three left over are one or two, if their trailing bits are zero. -/
def decodeChars : List Char → Option (List UInt8)
  | [] => some []
  | [_] => none
  | [p, q] => do
    let p ← value? p
    let q ← value? q
    if q % 16 = 0 then some [UInt8.ofNat (p * 4 + q / 16)] else none
  | [p, q, r] => do
    let p ← value? p
    let q ← value? q
    let r ← value? r
    if r % 4 = 0 then some [UInt8.ofNat (p * 4 + q / 16), UInt8.ofNat (q % 16 * 16 + r / 4)] else none
  | p :: q :: r :: s :: rest => do
    let p ← value? p
    let q ← value? q
    let r ← value? r
    let s ← value? s
    let bs ← decodeChars rest
    some (UInt8.ofNat (p * 4 + q / 16) :: UInt8.ofNat (q % 16 * 16 + r / 4) :: UInt8.ofNat (r % 4 * 64 + s) :: bs)

theorem encodeChars_mem {c : Char} : ∀ {bs : List UInt8}, c ∈ encodeChars bs → c ∈ alphabet
  | [], h => by cases h
  | [a], h => by
    have := a.toNat_lt
    simp only [encodeChars, List.mem_cons, List.not_mem_nil, or_false] at h
    rcases h with rfl | rfl <;> exact letter_mem (by omega)
  | [a, b], h => by
    have := a.toNat_lt
    have := b.toNat_lt
    simp only [encodeChars, List.mem_cons, List.not_mem_nil, or_false] at h
    rcases h with rfl | rfl | rfl <;> exact letter_mem (by omega)
  | a :: b :: c :: rest, h => by
    have := a.toNat_lt
    have := b.toNat_lt
    have := c.toNat_lt
    simp only [encodeChars, List.mem_cons] at h
    rcases h with rfl | rfl | rfl | rfl | h
    · exact letter_mem (by omega)
    · exact letter_mem (by omega)
    · exact letter_mem (by omega)
    · exact letter_mem (by omega)
    · exact encodeChars_mem h

/-- A byte written as a number that is its value. -/
theorem ofNat_eq {n : Nat} {a : UInt8} (h : n = a.toNat) : UInt8.ofNat n = a := by
  rw [h, UInt8.ofNat_toNat]

/-- **Decoding undoes encoding.** -/
theorem decodeChars_encodeChars : ∀ bs : List UInt8, decodeChars (encodeChars bs) = some bs
  | [] => rfl
  | [a] => by
    have ha := a.toNat_lt
    simp only [encodeChars, decodeChars, value?_letter (show a.toNat / 4 < 64 by omega),
      value?_letter (show a.toNat % 4 * 16 < 64 by omega), Option.bind_eq_bind, Option.bind_some]
    rw [if_pos (by omega), ofNat_eq (show _ = a.toNat by omega)]
  | [a, b] => by
    have ha := a.toNat_lt
    have hb := b.toNat_lt
    simp only [encodeChars, decodeChars, value?_letter (show a.toNat / 4 < 64 by omega),
      value?_letter (show a.toNat % 4 * 16 + b.toNat / 16 < 64 by omega),
      value?_letter (show b.toNat % 16 * 4 < 64 by omega), Option.bind_eq_bind, Option.bind_some]
    rw [if_pos (by omega), ofNat_eq (show _ = a.toNat by omega), ofNat_eq (show _ = b.toNat by omega)]
  | a :: b :: c :: rest => by
    have ha := a.toNat_lt
    have hb := b.toNat_lt
    have hc := c.toNat_lt
    simp only [encodeChars, decodeChars, value?_letter (show a.toNat / 4 < 64 by omega),
      value?_letter (show a.toNat % 4 * 16 + b.toNat / 16 < 64 by omega),
      value?_letter (show b.toNat % 16 * 4 + c.toNat / 64 < 64 by omega),
      value?_letter (show c.toNat % 64 < 64 by omega), decodeChars_encodeChars rest,
      Option.bind_eq_bind, Option.bind_some]
    rw [ofNat_eq (show _ = a.toNat by omega), ofNat_eq (show _ = b.toNat by omega),
      ofNat_eq (show _ = c.toNat by omega)]

/-- **Only encodings are decoded.** -/
theorem encodeChars_of_decodeChars : ∀ {cs : List Char} {bs : List UInt8}, decodeChars cs = some bs →
    encodeChars bs = cs
  | [], bs, h => by cases h; rfl
  | [_], bs, h => by cases h
  | [p, q], bs, h => by
    simp only [decodeChars, Option.bind_eq_bind, Option.bind_eq_some_iff] at h
    obtain ⟨p', hp, q', hq, h⟩ := h
    obtain ⟨hpl, rfl⟩ := value?_eq_some hp
    obtain ⟨hql, rfl⟩ := value?_eq_some hq
    split at h
    · cases h
      simp only [encodeChars, UInt8.toNat_ofNat', List.cons.injEq, and_true]
      exact ⟨congrArg letter (by omega), congrArg letter (by omega)⟩
    · cases h
  | [p, q, r], bs, h => by
    simp only [decodeChars, Option.bind_eq_bind, Option.bind_eq_some_iff] at h
    obtain ⟨p', hp, q', hq, r', hr, h⟩ := h
    obtain ⟨hpl, rfl⟩ := value?_eq_some hp
    obtain ⟨hql, rfl⟩ := value?_eq_some hq
    obtain ⟨hrl, rfl⟩ := value?_eq_some hr
    split at h
    · cases h
      simp only [encodeChars, UInt8.toNat_ofNat', List.cons.injEq, and_true]
      exact ⟨congrArg letter (by omega), congrArg letter (by omega), congrArg letter (by omega)⟩
    · cases h
  | p :: q :: r :: s :: rest, bs, h => by
    simp only [decodeChars, Option.bind_eq_bind, Option.bind_eq_some_iff] at h
    obtain ⟨p', hp, q', hq, r', hr, s', hs, bs', hrest, h⟩ := h
    obtain ⟨hpl, rfl⟩ := value?_eq_some hp
    obtain ⟨hql, rfl⟩ := value?_eq_some hq
    obtain ⟨hrl, rfl⟩ := value?_eq_some hr
    obtain ⟨hsl, rfl⟩ := value?_eq_some hs
    cases h
    simp only [encodeChars, UInt8.toNat_ofNat', encodeChars_of_decodeChars hrest, List.cons.injEq, and_true]
    exact ⟨congrArg letter (by omega), congrArg letter (by omega), congrArg letter (by omega),
      congrArg letter (by omega)⟩

/-- The standard alphabet without padding. -/
def standardNoPad : Engine where
  encode bs := String.ofList (encodeChars bs)
  decode s := decodeChars s.toList
  encode_nil := rfl
  mem_alphabet h := encodeChars_mem (by simpa using h)
  decode_encode bs := by simp [decodeChars_encodeChars]
  encode_of_decode h := by rw [encodeChars_of_decodeChars h, String.ofList_toList]

end Base64
