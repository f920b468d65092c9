import LzcSdk.Lib.Scan
import LzcSdk.Net

/-!
# Socket addresses as text

How the standard library prints internet addresses and reads them. An IPv4 address is four decimal octets without
leading zeros; an IPv6 address is eight hexadecimal groups, where `::` stands for the longest run of at least two zero
groups, and the last two may be written as an IPv4 address; a socket address adds a port, and an IPv6 one stands in
brackets and may have a scope behind `%`.

Reading undoes printing (`readSocketAddr_fmt`), for every address without a flow label, which is not printed. The text
of an IPv4 address that is read is the one that is printed (`exists_of_readIpv4Addr`).
-/

namespace LzcSdk

open Scan

/-! ## The readers -/

/-- One octet of an IPv4 address. -/
def OCTET : Format := ⟨10, some 3, false, UInt8.size⟩

/-- One group of an IPv6 address. -/
def GROUP : Format := ⟨16, some 4, true, UInt16.size⟩

/-- A scope. -/
def SCOPE : Format := ⟨10, none, true, UInt32.size⟩

/-- Read this character. -/
def readGivenChar (target : Char) : List Char → Option (List Char)
  | c :: cs => if c = target then some cs else none
  | [] => none

/-- Read a separator, except in front of the first part, and then a part. -/
def readSeparator {α : Type} (sep : Char) (index : Nat) (inner : List Char → Option (α × List Char)) (cs : List Char) :
    Option (α × List Char) :=
  if 0 < index then (readGivenChar sep cs).bind inner else inner cs

def readOctet (cs : List Char) : Option (UInt8 × List Char) := do
  let (n, cs) ← OCTET.number cs
  return (UInt8.ofNat n, cs)

def readIpv4Addr (cs : List Char) : Option (Ipv4Addr × List Char) := do
  let (a, cs) ← readSeparator '.' 0 readOctet cs
  let (b, cs) ← readSeparator '.' 1 readOctet cs
  let (c, cs) ← readSeparator '.' 2 readOctet cs
  let (d, cs) ← readSeparator '.' 3 readOctet cs
  return (Ipv4Addr.new a b c d, cs)

def readGroup (cs : List Char) : Option (UInt16 × List Char) := do
  let (n, cs) ← GROUP.number cs
  return (UInt16.ofNat n, cs)

/-- Read at most this many groups, from the one at `index` on, and say whether the last two were an IPv4 address. -/
def readGroups : Nat → Nat → List Char → (List UInt16 × Bool) × List Char
  | _, 0, cs => (([], false), cs)
  | index, n + 1, cs =>
    match if n = 0 then none else readSeparator ':' index readIpv4Addr cs with
    | some (ip, cs) =>
      (([Bytes.ofBeBytes (ip.octets.get 0) (ip.octets.get 1), Bytes.ofBeBytes (ip.octets.get 2) (ip.octets.get 3)],
        true), cs)
    | none =>
      match readSeparator ':' index readGroup cs with
      | some (group, cs) =>
        let ((groups, ipv4), cs) := readGroups (index + 1) n cs
        ((group :: groups, ipv4), cs)
      | none => (([], false), cs)

/-- The address with these eight groups. -/
def Ipv6Addr.ofSegments (groups : List UInt16) : Option Ipv6Addr :=
  (Bytes.vector? 16 (groups.flatMap Bytes.beBytes)).map Ipv6Addr.mk

def readIpv6Addr (cs : List Char) : Option (Ipv6Addr × List Char) :=
  let ((head, headIpv4), cs) := readGroups 0 8 cs
  if head.length = 8 then do
    let ip ← Ipv6Addr.ofSegments head
    return (ip, cs)
  else if headIpv4 then none
  else do
    let cs ← readGivenChar ':' cs
    let cs ← readGivenChar ':' cs
    let ((tail, _), cs) := readGroups 0 (8 - (head.length + 1)) cs
    let ip ← Ipv6Addr.ofSegments (head ++ List.replicate (8 - head.length - tail.length) 0 ++ tail)
    return (ip, cs)

def readPort (cs : List Char) : Option (UInt16 × List Char) := do
  let cs ← readGivenChar ':' cs
  let (n, cs) ← U16.number cs
  return (UInt16.ofNat n, cs)

def readScopeId (cs : List Char) : Option (UInt32 × List Char) := do
  let cs ← readGivenChar '%' cs
  let (n, cs) ← SCOPE.number cs
  return (UInt32.ofNat n, cs)

def readSocketAddrV4 (cs : List Char) : Option (SocketAddr × List Char) := do
  let (ip, cs) ← readIpv4Addr cs
  let (port, cs) ← readPort cs
  return (.v4 ip port, cs)

def readSocketAddrV6 (cs : List Char) : Option (SocketAddr × List Char) := do
  let cs ← readGivenChar '[' cs
  let (ip, cs) ← readIpv6Addr cs
  let (scopeId, cs) := (readScopeId cs).getD (0, cs)
  let cs ← readGivenChar ']' cs
  let (port, cs) ← readPort cs
  return (.v6 ip port 0 scopeId, cs)

def readSocketAddr (cs : List Char) : Option (SocketAddr × List Char) :=
  readSocketAddrV4 cs <|> readSocketAddrV6 cs

/-- `SocketAddr::from_str`: the whole text is an address. -/
def SocketAddr.fromStr (s : String) : Option SocketAddr :=
  match readSocketAddr s.toList with
  | some (address, []) => some address
  | _ => none

/-! ## Printing -/

def Ipv4Addr.fmt (ip : Ipv4Addr) : List Char :=
  Nat.toDigits 10 (ip.octets.get 0).toNat ++ '.' :: (Nat.toDigits 10 (ip.octets.get 1).toNat ++
    '.' :: (Nat.toDigits 10 (ip.octets.get 2).toNat ++ '.' :: Nat.toDigits 10 (ip.octets.get 3).toNat))

/-- The sixteen-bit values of a byte string. -/
def segmentsOf : List UInt8 → List UInt16
  | hi :: lo :: bytes => Bytes.ofBeBytes hi lo :: segmentsOf bytes
  | _ => []

def Ipv6Addr.segments (ip : Ipv6Addr) : List UInt16 := segmentsOf ip.octets.toList

/-- A part of a list. -/
structure Span where
  start : Nat
  len : Nat
  deriving DecidableEq, Repr

/-- The longest run of zero groups: the one found before, or one that goes on or begins at `index`. -/
def Span.longest : List UInt16 → Nat → Span → Span → Span
  | [], _, longest, _ => longest
  | group :: groups, index, longest, current =>
    if group = 0 then
      let current : Span := if current.len = 0 then ⟨index, 1⟩ else ⟨current.start, current.len + 1⟩
      Span.longest groups (index + 1) (if longest.len < current.len then current else longest) current
    else Span.longest groups (index + 1) longest ⟨0, 0⟩

/-- Groups with colons between them. -/
def fmtSubslice : List UInt16 → List Char
  | [] => []
  | first :: tail => Nat.toDigits 16 first.toNat ++ tail.flatMap fun group => ':' :: Nat.toDigits 16 group.toNat

def Ipv6Addr.fmt (ip : Ipv6Addr) : List Char :=
  match ip.toIpv4Mapped with
  | some ipv4 => [':', ':', 'f', 'f', 'f', 'f', ':'] ++ ipv4.fmt
  | none =>
    let segments := ip.segments
    let zeroes := Span.longest segments 0 ⟨0, 0⟩ ⟨0, 0⟩
    if 1 < zeroes.len then
      fmtSubslice (segments.take zeroes.start) ++ [':', ':'] ++ fmtSubslice (segments.drop (zeroes.start + zeroes.len))
    else fmtSubslice segments

def SocketAddr.fmt : SocketAddr → List Char
  | v4 ip port => ip.fmt ++ ':' :: Nat.toDigits 10 port.toNat
  | v6 ip port _ scopeId =>
    if scopeId = 0 then '[' :: ip.fmt ++ [']', ':'] ++ Nat.toDigits 10 port.toNat
    else '[' :: ip.fmt ++ '%' :: Nat.toDigits 10 scopeId.toNat ++ [']', ':'] ++ Nat.toDigits 10 port.toNat

/-- `SocketAddr::to_string`. -/
def SocketAddr.toText (address : SocketAddr) : String := String.ofList address.fmt

/-! ## Separators -/

section Separators

variable {α : Type} {sep c : Char} {index : Nat} {inner : List Char → Option (α × List Char)} {cs rest : List Char}
  {a : α}

theorem readGivenChar_cons (c : Char) (cs : List Char) : readGivenChar c (c :: cs) = some cs := if_pos rfl

theorem readGivenChar_eq_some : readGivenChar c cs = some rest ↔ cs = c :: rest := by
  constructor
  · intro h
    cases cs with
    | nil => cases h
    | cons c' cs =>
      rw [readGivenChar] at h
      split_ifs at h with hc
      rw [hc, Option.some.inj h]
  · rintro rfl
    exact readGivenChar_cons c rest

theorem readSeparator_zero (sep : Char) (inner : List Char → Option (α × List Char)) (cs : List Char) :
    readSeparator sep 0 inner cs = inner cs := rfl

theorem readSeparator_succ (sep : Char) (index : Nat) (inner : List Char → Option (α × List Char)) (cs : List Char) :
    readSeparator sep (index + 1) inner (sep :: cs) = inner cs := by
  rw [readSeparator, if_pos (Nat.succ_pos index), readGivenChar_cons]
  rfl

theorem readSeparator_eq_some (h : readSeparator sep (index + 1) inner cs = some (a, rest)) :
    ∃ cs', cs = sep :: cs' ∧ inner cs' = some (a, rest) := by
  rw [readSeparator, if_pos (Nat.succ_pos index)] at h
  obtain ⟨cs', hsep, hinner⟩ := Option.bind_eq_some_iff.1 h
  exact ⟨cs', readGivenChar_eq_some.1 hsep, hinner⟩

end Separators

/-! ## IPv4 addresses -/

section Ipv4

variable {cs rest : List Char} {v : UInt8} {ip : Ipv4Addr}

theorem Ipv4Addr.exists_new (ip : Ipv4Addr) : ∃ a b c d, ip = Ipv4Addr.new a b c d := by
  obtain ⟨⟨⟨xs⟩, h⟩⟩ := ip
  match xs, h with
  | [a, b, c, d], _ => exact ⟨a, b, c, d, rfl⟩

theorem fmt_new (a b c d : UInt8) (rest : List Char) : (Ipv4Addr.new a b c d).fmt ++ rest =
    Nat.toDigits 10 a.toNat ++ '.' :: (Nat.toDigits 10 b.toNat ++ '.' :: (Nat.toDigits 10 c.toNat ++
      '.' :: (Nat.toDigits 10 d.toNat ++ rest))) := by
  simp only [Ipv4Addr.fmt, List.append_assoc, List.cons_append]
  rfl

theorem readOctet_toDigits (v : UInt8) (hrest : Ends 10 rest) :
    readOctet (Nat.toDigits 10 v.toNat ++ rest) = some (v, rest) := by
  have hv := v.toNat_lt
  have hread : OCTET.number (Nat.toDigits 10 v.toNat ++ rest) = some (v.toNat, rest) :=
    number_toDigits (f := OCTET) (by decide) (by decide) hv (by simp [OCTET]; omega) hrest
  rw [readOctet, hread]
  simp

theorem exists_of_readOctet (h : readOctet cs = some (v, rest)) :
    cs = Nat.toDigits 10 v.toNat ++ rest ∧ Ends 10 rest := by
  obtain ⟨⟨n, cs'⟩, hread, hv⟩ := Option.bind_eq_some_iff.1 h
  cases hv
  obtain ⟨digits, rfl, hd, rfl, hends⟩ := exists_of_number hread
  refine ⟨?_, hends⟩
  rw [UInt8.toNat_ofNat_of_lt' hd.lt]
  exact congrArg (· ++ rest) (hd.eq_toDigits (by decide) (by decide) rfl)

/-- A printed address is read back. -/
theorem readIpv4Addr_fmt (ip : Ipv4Addr) (hrest : Ends 10 rest) :
    readIpv4Addr (ip.fmt ++ rest) = some (ip, rest) := by
  obtain ⟨a, b, c, d, rfl⟩ := ip.exists_new
  have hdot : ∀ cs, Ends 10 ('.' :: cs) := fun cs => ends_cons (by decide)
  rw [fmt_new, readIpv4Addr, readSeparator_zero, readOctet_toDigits a (hdot _)]
  simp only [Option.bind_eq_bind, Option.bind_some, readSeparator_succ]
  rw [readOctet_toDigits b (hdot _)]
  simp only [Option.bind_some, readSeparator_succ]
  rw [readOctet_toDigits c (hdot _)]
  simp only [Option.bind_some, readSeparator_succ]
  rw [readOctet_toDigits d hrest]
  rfl

/-- What is read as an address is its printed form. -/
theorem exists_of_readIpv4Addr (h : readIpv4Addr cs = some (ip, rest)) : cs = ip.fmt ++ rest ∧ Ends 10 rest := by
  obtain ⟨⟨a, cs₁⟩, ha, h⟩ := Option.bind_eq_some_iff.1 h
  obtain ⟨⟨b, cs₂⟩, hb, h⟩ := Option.bind_eq_some_iff.1 h
  obtain ⟨⟨c, cs₃⟩, hc, h⟩ := Option.bind_eq_some_iff.1 h
  obtain ⟨⟨d, cs₄⟩, hd, h⟩ := Option.bind_eq_some_iff.1 h
  cases h
  obtain ⟨cs₁, rfl, hb⟩ := readSeparator_eq_some hb
  obtain ⟨cs₂, rfl, hc⟩ := readSeparator_eq_some hc
  obtain ⟨cs₃, rfl, hd⟩ := readSeparator_eq_some hd
  obtain ⟨rfl, -⟩ := exists_of_readOctet ha
  obtain ⟨rfl, -⟩ := exists_of_readOctet hb
  obtain ⟨rfl, -⟩ := exists_of_readOctet hc
  obtain ⟨rfl, hends⟩ := exists_of_readOctet hd
  exact ⟨(fmt_new a b c d rest).symm, hends⟩

/-- An address is printed with digits and dots. -/
theorem mem_fmt {c : Char} (h : c ∈ ip.fmt) : (∃ d < 10, c = d.digitChar) ∨ c = '.' := by
  have hdigits : ∀ n, c ∈ Nat.toDigits 10 n → ∃ d < 10, c = d.digitChar := by
    intro n hc
    obtain ⟨d, hd⟩ := Option.isSome_iff_exists.1 (isDigit_of_mem_toDigits (by decide) (by decide) c hc)
    obtain ⟨hlt, rfl⟩ := toDigit_eq_some le_rfl hd
    exact ⟨d, hlt, rfl⟩
  simp only [Ipv4Addr.fmt, List.mem_append, List.mem_cons] at h
  rcases h with h | h | h | h | h | h | h
  · exact .inl (hdigits _ h)
  · exact .inr h
  · exact .inl (hdigits _ h)
  · exact .inr h
  · exact .inl (hdigits _ h)
  · exact .inr h
  · exact .inl (hdigits _ h)

theorem length_fmt_le (ip : Ipv4Addr) : ip.fmt.length ≤ 15 := by
  have hoctet : ∀ v : UInt8, (Nat.toDigits 10 v.toNat).length ≤ 3 := by
    intro v
    have hv := v.toNat_lt
    exact (Nat.length_toDigits_le_iff (by decide) (by decide)).2 (by omega)
  have h0 := hoctet (ip.octets.get 0)
  have h1 := hoctet (ip.octets.get 1)
  have h2 := hoctet (ip.octets.get 2)
  have h3 := hoctet (ip.octets.get 3)
  simp only [Ipv4Addr.fmt, List.length_append, List.length_cons]
  omega

end Ipv4

/-! ## Groups -/

section Groups

variable {cs rest : List Char} {groups : List UInt16} {index n : Nat}

theorem readGroup_toDigits (group : UInt16) (hrest : Ends 16 rest) :
    readGroup (Nat.toDigits 16 group.toNat ++ rest) = some (group, rest) := by
  have hg := group.toNat_lt
  have hread : GROUP.number (Nat.toDigits 16 group.toNat ++ rest) = some (group.toNat, rest) :=
    number_toDigits (f := GROUP) (by decide) (by decide) hg (by simp [GROUP]; omega) hrest
  rw [readGroup, hread]
  simp

theorem readGroup_eq_none (h : Ends 16 cs) : readGroup cs = none := by
  rw [readGroup, number_eq_none (f := GROUP) h]
  rfl

theorem readIpv4Addr_eq_none (h : Ends 10 cs) : readIpv4Addr cs = none := by
  rw [readIpv4Addr, readSeparator_zero, readOctet, number_eq_none (f := OCTET) h]
  rfl

/-- A group ends here: neither a digit follows nor a dot. -/
def EndsGroup (cs : List Char) : Prop := ∀ c ∈ cs.head?, isDigit 16 c = false ∧ c ≠ '.'

theorem endsGroup_cons {c : Char} (h : isDigit 16 c = false ∧ c ≠ '.') : EndsGroup (c :: cs) := by
  rintro c' ⟨⟩
  exact h

theorem EndsGroup.ends (h : EndsGroup cs) : Ends 16 cs := fun c hc => (h c hc).1

/-- The groups end here: no group follows, with a colon or without. -/
structure Stops (cs : List Char) : Prop where
  ends : EndsGroup cs
  colon : ∀ cs', cs = ':' :: cs' → Ends 16 cs'

/-- Neither an IPv4 address nor a group follows. -/
theorem Stops.readSeparator {α : Type} {inner : List Char → Option (α × List Char)} (h : Stops cs)
    (hinner : ∀ cs, Ends 16 cs → inner cs = none) (index : Nat) : LzcSdk.readSeparator ':' index inner cs = none := by
  cases index with
  | zero => exact hinner cs h.ends.ends
  | succ index =>
    cases hr : LzcSdk.readSeparator ':' (index + 1) inner cs with
    | none => rfl
    | some r =>
      obtain ⟨cs', hcs, hread⟩ := readSeparator_eq_some hr
      rw [hinner cs' (h.colon cs' hcs)] at hread
      cases hread

/-- A group is not the start of an IPv4 address: no dot follows its digits. -/
theorem readIpv4Addr_group (group : UInt16) (hrest : EndsGroup rest) :
    readIpv4Addr (Nat.toDigits 16 group.toNat ++ rest) = none := by
  cases hr : readIpv4Addr (Nat.toDigits 16 group.toNat ++ rest) with
  | none => rfl
  | some r =>
    obtain ⟨hcs, -⟩ := exists_of_readIpv4Addr hr
    obtain ⟨a, b, c, d, hip⟩ := r.1.exists_new
    rw [hip, fmt_new] at hcs
    have hgroup : (Nat.toDigits 16 group.toNat ++ rest).dropWhile (isDigit 16) = rest :=
      (takeWhile_digits (isDigit_of_mem_toDigits (by decide) le_rfl) hrest.ends).2
    have hoctet : ∀ ch ∈ Nat.toDigits 10 a.toNat, isDigit 16 ch := fun ch hch =>
      isDigit_mono (by decide) (isDigit_of_mem_toDigits (by decide) (by decide) ch hch)
    rw [hcs, (takeWhile_digits hoctet (ends_cons (by decide))).2] at hgroup
    exact absurd rfl (hrest '.' (by rw [← hgroup]; rfl)).2

/-- The colon in front of a group that is not the first one. -/
def lead (index : Nat) : List Char := if index = 0 then [] else [':']

/-- Groups with colons between them, from the one at `index` on. -/
def fmtGroups : Nat → List UInt16 → List Char
  | _, [] => []
  | index, group :: groups => lead index ++ Nat.toDigits 16 group.toNat ++ fmtGroups (index + 1) groups

theorem fmtGroups_succ (index : Nat) (groups : List UInt16) : fmtGroups (index + 1) groups =
    groups.flatMap fun group => ':' :: Nat.toDigits 16 group.toNat := by
  induction groups generalizing index with
  | nil => rfl
  | cons group groups ih =>
    rw [fmtGroups, ih, List.flatMap_cons]
    rfl

theorem fmtSubslice_eq (groups : List UInt16) : fmtSubslice groups = fmtGroups 0 groups := by
  cases groups with
  | nil => rfl
  | cons group groups =>
    rw [fmtSubslice, fmtGroups, fmtGroups_succ]
    rfl

theorem readSeparator_lead {α : Type} (inner : List Char → Option (α × List Char)) (index : Nat) (cs : List Char) :
    readSeparator ':' index inner (lead index ++ cs) = inner cs := by
  cases index with
  | zero => rfl
  | succ index => exact readSeparator_succ ':' index inner cs

/-- Behind a group come more of them, or the end. -/
theorem endsGroup_fmtGroups (h : EndsGroup rest) (groups : List UInt16) :
    EndsGroup (fmtGroups (index + 1) groups ++ rest) := by
  cases groups with
  | nil => exact h
  | cons group groups => exact endsGroup_cons (by decide)

/-- A printed group is read. -/
theorem readGroups_cons (group : UInt16) (hrest : EndsGroup rest) :
    readGroups index (n + 1) (lead index ++ Nat.toDigits 16 group.toNat ++ rest) =
      ((group :: (readGroups (index + 1) n rest).1.1, (readGroups (index + 1) n rest).1.2),
        (readGroups (index + 1) n rest).2) := by
  have hipv4 : (if n = 0 then none
      else readSeparator ':' index readIpv4Addr (lead index ++ (Nat.toDigits 16 group.toNat ++ rest))) = none := by
    rw [readSeparator_lead, readIpv4Addr_group group hrest, ite_self]
  rw [List.append_assoc, readGroups, hipv4, readSeparator_lead, readGroup_toDigits group hrest.ends]

/-- Reading stops where no group follows. -/
theorem readGroups_stops (h : Stops rest) (index n : Nat) : readGroups index n rest = (([], false), rest) := by
  cases n with
  | zero => rfl
  | succ n =>
    have hipv4 : (if n = 0 then none else readSeparator ':' index readIpv4Addr rest) = none := by
      rw [h.readSeparator (fun cs hcs => readIpv4Addr_eq_none (hcs.mono (by decide))), ite_self]
    rw [readGroups, hipv4, h.readSeparator fun cs => readGroup_eq_none]

/-- Printed groups are read back. -/
theorem readGroups_fmtGroups (hrest : Stops rest) (hn : groups.length ≤ n) :
    readGroups index n (fmtGroups index groups ++ rest) = ((groups, false), rest) := by
  induction groups generalizing index n with
  | nil => exact readGroups_stops hrest index n
  | cons group groups ih =>
    cases n with
    | zero => exact absurd hn (by simp)
    | succ n =>
      rw [fmtGroups, List.append_assoc, readGroups_cons group (endsGroup_fmtGroups hrest.ends groups),
        ih (Nat.le_of_succ_le_succ hn)]

end Groups

/-! ## Runs of zeros -/

namespace Span

/-- All groups of the span are zero. -/
def IsZero (groups : List UInt16) (s : Span) : Prop :=
  ∀ i, s.start ≤ i → i < s.start + s.len → groups[i]? = some 0

variable {groups seen : List UInt16} {s longest current : Span}

theorem isZero_empty (groups : List UInt16) (start : Nat) : IsZero groups ⟨start, 0⟩ := by
  intro i hge hlt
  have hge : start ≤ i := hge
  exact absurd hlt (Nat.not_lt.2 hge)

theorem IsZero.append (h : IsZero seen s) (groups : List UInt16) : IsZero (seen ++ groups) s := by
  intro i hge hlt
  have hi := h i hge hlt
  rw [List.getElem?_append_left (List.getElem?_eq_some_iff.1 hi).1, hi]

/-- A run that ends here goes on with another zero. -/
theorem IsZero.concat {start len : Nat} (h : IsZero seen ⟨start, len⟩) (hend : start + len = seen.length) :
    IsZero (seen ++ [0]) ⟨start, len + 1⟩ := by
  intro i hge hlt
  rcases Nat.lt_or_ge i (start + len) with hi | hi
  · exact h.append [0] i hge hi
  · have hlast : i = seen.length := by simp only at hlt; omega
    rw [hlast, List.getElem?_append_right le_rfl, Nat.sub_self]
    rfl

/-- The longest run is one of zeros, and so is the one that goes on. -/
theorem isZero_longest (hl : IsZero seen longest) (hc : IsZero seen current)
    (hend : 0 < current.len → current.start + current.len = seen.length) :
    IsZero (seen ++ groups) (Span.longest groups seen.length longest current) := by
  induction groups generalizing seen longest current with
  | nil =>
    rw [List.append_nil]
    exact hl
  | cons group groups ih =>
    rw [Span.longest, List.append_cons]
    have hlen : (seen ++ [group]).length = seen.length + 1 := List.length_append
    split
    · rename_i hzero
      subst hzero
      obtain ⟨next, hnext, hrun, hgoes⟩ : ∃ next : Span,
          next = (if current.len = 0 then ⟨seen.length, 1⟩ else ⟨current.start, current.len + 1⟩) ∧
            IsZero (seen ++ [0]) next ∧ next.start + next.len = (seen ++ [(0 : UInt16)]).length := by
        refine ⟨_, rfl, ?_⟩
        split
        · exact ⟨(isZero_empty seen seen.length).concat rfl, hlen.symm⟩
        · rename_i hpos
          have hlast := hend (Nat.pos_of_ne_zero hpos)
          exact ⟨hc.concat hlast, by rw [hlen, ← hlast]; rfl⟩
      simp only [← hnext]
      rw [← hlen]
      refine ih ?_ hrun fun _ => hgoes
      split
      · exact hrun
      · exact hl.append [0]
    · rw [← hlen]
      exact ih (hl.append [group]) (isZero_empty _ 0) fun h => absurd h (Nat.lt_irrefl 0)

/-- A run of zeros can be cut out. -/
theorem IsZero.split (h : IsZero groups s) (hpos : 0 < s.len) : s.start + s.len ≤ groups.length ∧
    groups.take s.start ++ List.replicate s.len 0 ++ groups.drop (s.start + s.len) = groups := by
  have hle : s.start + s.len ≤ groups.length := by
    have hlast := h (s.start + s.len - 1) (by omega) (by omega)
    have hlt := (List.getElem?_eq_some_iff.1 hlast).1
    omega
  have hrun : List.replicate s.len 0 = (groups.drop s.start).take s.len := by
    apply List.ext_getElem?
    intro i
    rw [List.getElem?_replicate, List.getElem?_take]
    split
    · rw [List.getElem?_drop, h (s.start + i) (by omega) (by omega)]
    · rfl
  refine ⟨hle, ?_⟩
  rw [hrun, List.append_assoc, ← List.drop_drop, List.take_append_drop, List.take_append_drop]

end Span

/-! ## IPv6 addresses -/

section Ipv6

variable {cs cs' rest : List Char} {groups head tail : List UInt16} {ipv4 : Bool}

theorem flatMap_segmentsOf : ∀ {bytes : List UInt8}, bytes.length % 2 = 0 →
    (segmentsOf bytes).flatMap Bytes.beBytes = bytes
  | [], _ => rfl
  | [_], h => absurd h (by simp)
  | hi :: lo :: bytes, h => by
    have hbytes : bytes.length % 2 = 0 := by
      simp only [List.length_cons] at h
      omega
    rw [segmentsOf, List.flatMap_cons, Bytes.beBytes_ofBeBytes, flatMap_segmentsOf hbytes]
    rfl

theorem length_segmentsOf : ∀ bytes : List UInt8, (segmentsOf bytes).length = bytes.length / 2
  | [] => rfl
  | [_] => by simp [segmentsOf]
  | hi :: lo :: bytes => by
    rw [segmentsOf, List.length_cons, length_segmentsOf bytes, List.length_cons, List.length_cons]
    omega

theorem length_segments (ip : Ipv6Addr) : ip.segments.length = 8 := by
  rw [Ipv6Addr.segments, length_segmentsOf, Vector.length_toList]

/-- The groups of an address make the address. -/
theorem ofSegments_segments (ip : Ipv6Addr) : Ipv6Addr.ofSegments ip.segments = some ip := by
  rw [Ipv6Addr.ofSegments, Ipv6Addr.segments, flatMap_segmentsOf (by rw [Vector.length_toList]), Bytes.vector?_toList]
  rfl

/-- Eight groups without `::`. -/
theorem readIpv6Addr_whole (h : readGroups 0 8 cs = ((groups, ipv4), rest)) (hlen : groups.length = 8) :
    readIpv6Addr cs = (Ipv6Addr.ofSegments groups).map fun ip => (ip, rest) := by
  rw [readIpv6Addr, h]
  simp only [if_pos hlen]
  cases Ipv6Addr.ofSegments groups <;> rfl

/-- The groups before `::` and those behind it. -/
theorem readIpv6Addr_compressed (hhead : readGroups 0 8 cs = ((head, false), ':' :: ':' :: cs'))
    (hlen : head.length ≠ 8)
    (htail : readGroups 0 (8 - (head.length + 1)) cs' = ((tail, ipv4), rest)) :
    readIpv6Addr cs =
      (Ipv6Addr.ofSegments (head ++ List.replicate (8 - head.length - tail.length) 0 ++ tail)).map
        fun ip => (ip, rest) := by
  rw [readIpv6Addr, hhead]
  simp only [if_neg hlen, Bool.false_eq_true, if_false, readGivenChar_cons, Option.bind_eq_bind, Option.bind_some,
    htail]
  cases Ipv6Addr.ofSegments (head ++ List.replicate (8 - head.length - tail.length) 0 ++ tail) <;> rfl

theorem stops_colons (cs : List Char) : Stops (':' :: ':' :: cs) := by
  refine ⟨endsGroup_cons (by decide), ?_⟩
  rintro cs' ⟨⟩
  exact ends_cons (by decide)

/-- An IPv4-mapped address is that of its IPv4 address. -/
theorem eq_toIpv6Mapped {ip : Ipv6Addr} {ipv4 : Ipv4Addr} (h : ip.toIpv4Mapped = some ipv4) :
    ip = ipv4.toIpv6Mapped := by
  unfold Ipv6Addr.toIpv4Mapped at h
  split at h
  · rename_i a b c d hoctets
    cases h
    obtain ⟨octets⟩ := ip
    exact congrArg Ipv6Addr.mk (Vector.toList_inj.1 hoctets)
  · cases h

/-- The mapped form is read back. -/
theorem readIpv6Addr_mapped (ipv4 : Ipv4Addr) (hrest : Stops rest) :
    readIpv6Addr ([':', ':', 'f', 'f', 'f', 'f', ':'] ++ ipv4.fmt ++ rest) = some (ipv4.toIpv6Mapped, rest) := by
  have hread : readGroups 1 6 (':' :: (ipv4.fmt ++ rest)) =
      (([Bytes.ofBeBytes (ipv4.octets.get 0) (ipv4.octets.get 1),
        Bytes.ofBeBytes (ipv4.octets.get 2) (ipv4.octets.get 3)], true), rest) := by
    rw [readGroups, if_neg (by decide), readSeparator_succ,
      readIpv4Addr_fmt ipv4 (hrest.ends.ends.mono (by decide))]
  have hcolon : EndsGroup (':' :: (ipv4.fmt ++ rest)) := endsGroup_cons (by decide)
  have htail : readGroups 0 7 (lead 0 ++ Nat.toDigits 16 (UInt16.toNat 0xffff) ++ ':' :: (ipv4.fmt ++ rest)) = _ :=
    readGroups_cons 0xffff hcolon
  rw [hread] at htail
  have htext : [':', ':', 'f', 'f', 'f', 'f', ':'] ++ ipv4.fmt ++ rest =
      ':' :: ':' :: (lead 0 ++ Nat.toDigits 16 (UInt16.toNat 0xffff) ++ ':' :: (ipv4.fmt ++ rest)) := rfl
  rw [htext, readIpv6Addr_compressed (readGroups_stops (stops_colons _) 0 8) (by decide) htail]
  obtain ⟨a, b, c, d, rfl⟩ := ipv4.exists_new
  have hgroups :
      ([] ++ List.replicate 5 0 ++ [0xffff, Bytes.ofBeBytes a b, Bytes.ofBeBytes c d]).flatMap Bytes.beBytes =
        (Ipv4Addr.new a b c d).toIpv6Mapped.octets.toList := by
    simp only [List.flatMap_append, List.flatMap_cons, Bytes.beBytes_ofBeBytes]
    rfl
  show (Ipv6Addr.ofSegments ([] ++ List.replicate 5 0 ++ [0xffff, Bytes.ofBeBytes a b, Bytes.ofBeBytes c d])).map _ = _
  rw [Ipv6Addr.ofSegments, hgroups, Bytes.vector?_toList]
  rfl

/-- Around a run of zeros, the groups are read back. -/
theorem readIpv6Addr_around (ip : Ipv6Addr) {zeroes : Span} (hzero : zeroes.IsZero ip.segments) (hlong : 1 < zeroes.len)
    (hrest : Stops rest) :
    readIpv6Addr (fmtSubslice (ip.segments.take zeroes.start) ++ [':', ':'] ++
      fmtSubslice (ip.segments.drop (zeroes.start + zeroes.len)) ++ rest) = some (ip, rest) := by
  have hlen := length_segments ip
  obtain ⟨hle, hsplit⟩ := hzero.split (by omega)
  have hstart : (ip.segments.take zeroes.start).length = zeroes.start := by
    rw [List.length_take]
    omega
  have hend : (ip.segments.drop (zeroes.start + zeroes.len)).length = 8 - (zeroes.start + zeroes.len) := by
    rw [List.length_drop, hlen]
  have hhead : readGroups 0 8 (fmtGroups 0 (ip.segments.take zeroes.start) ++
      ':' :: ':' :: (fmtGroups 0 (ip.segments.drop (zeroes.start + zeroes.len)) ++ rest)) = _ :=
    readGroups_fmtGroups (stops_colons _) (by omega)
  have htail : readGroups 0 (8 - ((ip.segments.take zeroes.start).length + 1))
      (fmtGroups 0 (ip.segments.drop (zeroes.start + zeroes.len)) ++ rest) = _ :=
    readGroups_fmtGroups hrest (by omega)
  have hzeroes : 8 - (ip.segments.take zeroes.start).length -
      (ip.segments.drop (zeroes.start + zeroes.len)).length = zeroes.len := by omega
  rw [fmtSubslice_eq, fmtSubslice_eq, List.append_assoc, List.append_assoc]
  refine (readIpv6Addr_compressed hhead (by omega) htail).trans ?_
  rw [hzeroes, hsplit, ofSegments_segments]
  rfl

/-- A printed address is read back. -/
theorem readIpv6Addr_fmt (ip : Ipv6Addr) (hrest : Stops rest) : readIpv6Addr (ip.fmt ++ rest) = some (ip, rest) := by
  unfold Ipv6Addr.fmt
  cases hmapped : ip.toIpv4Mapped with
  | some ipv4 =>
    rw [eq_toIpv6Mapped hmapped]
    exact readIpv6Addr_mapped ipv4 hrest
  | none =>
    have hlen := length_segments ip
    have hzero : Span.IsZero ip.segments (Span.longest ip.segments 0 ⟨0, 0⟩ ⟨0, 0⟩) :=
      Span.isZero_longest (Span.isZero_empty [] 0) (Span.isZero_empty [] 0) fun h => absurd h (Nat.lt_irrefl 0)
    simp only
    generalize Span.longest ip.segments 0 ⟨0, 0⟩ ⟨0, 0⟩ = zeroes at hzero ⊢
    split
    · rename_i hlong
      exact readIpv6Addr_around ip hzero hlong hrest
    · rw [fmtSubslice_eq, readIpv6Addr_whole (readGroups_fmtGroups hrest (by omega)) hlen, ofSegments_segments]
      rfl

end Ipv6

/-! ## Socket addresses -/

section SocketAddr

variable {cs rest : List Char} {address : SocketAddr} {port : UInt16} {s : String}

/-- A port is a colon and a decimal numeral of sixteen bits. -/
theorem readPort_eq_some : readPort cs = some (port, rest) ↔ ∃ digits, cs = ':' :: (digits ++ rest) ∧
    U16.Numeral digits ∧ value 10 digits = port.toNat ∧ Ends 10 rest := by
  constructor
  · intro h
    obtain ⟨cs', hcolon, h⟩ := Option.bind_eq_some_iff.1 h
    obtain ⟨⟨n, cs''⟩, hread, hport⟩ := Option.bind_eq_some_iff.1 h
    cases hport
    obtain ⟨digits, rfl, hd, rfl, hends⟩ := exists_of_number hread
    exact ⟨digits, readGivenChar_eq_some.1 hcolon, hd, (UInt16.toNat_ofNat_of_lt' hd.lt).symm, hends⟩
  · rintro ⟨digits, rfl, hd, hport, hends⟩
    have hread : U16.number (digits ++ rest) = some (value 10 digits, rest) := number_append hd hends
    rw [readPort, readGivenChar_cons, Option.bind_eq_bind, Option.bind_some, hread, hport]
    simp

theorem numeral_port (port : UInt16) : U16.Numeral (Nat.toDigits 10 port.toNat) :=
  numeral_toDigits (f := U16) (by decide) (by decide) port.toNat_lt nofun

theorem readPort_toDigits (port : UInt16) : readPort (':' :: Nat.toDigits 10 port.toNat) = some (port, []) :=
  readPort_eq_some.2 ⟨_, by rw [List.append_nil], numeral_port port, value_toDigits (by decide) (by decide) _,
    ends_nil 10⟩

theorem readScopeId_toDigits (scopeId : UInt32) (hrest : Ends 10 rest) :
    readScopeId ('%' :: (Nat.toDigits 10 scopeId.toNat ++ rest)) = some (scopeId, rest) := by
  have hread : SCOPE.number (Nat.toDigits 10 scopeId.toNat ++ rest) = some (scopeId.toNat, rest) :=
    number_toDigits (f := SCOPE) (by decide) (by decide) scopeId.toNat_lt nofun hrest
  rw [readScopeId, readGivenChar_cons, Option.bind_eq_bind, Option.bind_some, hread]
  simp

/-- An IPv4 socket address is an IPv4 address and a port. -/
theorem readSocketAddrV4_eq_some : readSocketAddrV4 cs = some (address, rest) ↔ ∃ ip port digits,
    cs = ip.fmt ++ ':' :: (digits ++ rest) ∧ U16.Numeral digits ∧ value 10 digits = port.toNat ∧ Ends 10 rest ∧
      address = .v4 ip port := by
  constructor
  · intro h
    obtain ⟨⟨ip, cs'⟩, hip, h⟩ := Option.bind_eq_some_iff.1 h
    obtain ⟨⟨port, cs''⟩, hport, haddress⟩ := Option.bind_eq_some_iff.1 h
    cases haddress
    obtain ⟨digits, rfl, hd, hvalue, hends⟩ := readPort_eq_some.1 hport
    exact ⟨ip, port, digits, (exists_of_readIpv4Addr hip).1, hd, hvalue, hends, rfl⟩
  · rintro ⟨ip, port, digits, rfl, hd, hvalue, hends, rfl⟩
    have hip : readIpv4Addr (ip.fmt ++ ':' :: (digits ++ rest)) = _ := readIpv4Addr_fmt ip (ends_cons (by decide))
    have hport := readPort_eq_some.2 ⟨digits, rfl, hd, hvalue, hends⟩
    simp only [readSocketAddrV4, hip, Option.bind_eq_bind, Option.bind_some, hport]
    rfl

/-- An IPv6 socket address stands in brackets. -/
theorem head?_of_readSocketAddrV6 (h : readSocketAddrV6 cs = some (address, rest)) : cs.head? = some '[' := by
  obtain ⟨cs', hbracket, -⟩ := Option.bind_eq_some_iff.1 h
  rw [readGivenChar_eq_some.1 hbracket]
  rfl

/-- The flow label of an address. -/
def SocketAddr.flowinfo : SocketAddr → UInt32
  | v4 _ _ => 0
  | v6 _ _ flowinfo _ => flowinfo

theorem flowinfo_of_readSocketAddr (h : readSocketAddr cs = some (address, rest)) : address.flowinfo = 0 := by
  unfold readSocketAddr at h
  cases hv4 : readSocketAddrV4 cs with
  | some r =>
    rw [hv4] at h
    cases h
    obtain ⟨ip, port, digits, -, -, -, -, rfl⟩ := readSocketAddrV4_eq_some.1 hv4
    rfl
  | none =>
    rw [hv4] at h
    obtain ⟨cs₁, -, h⟩ := Option.bind_eq_some_iff.1 h
    obtain ⟨⟨ip, cs₂⟩, -, h⟩ := Option.bind_eq_some_iff.1 h
    obtain ⟨cs₃, -, h⟩ := Option.bind_eq_some_iff.1 h
    obtain ⟨⟨port, cs₄⟩, -, h⟩ := Option.bind_eq_some_iff.1 h
    cases h
    rfl

/-- Neither a group nor a colon follows an IPv6 address in brackets. -/
theorem stops_cons {c : Char} (h : isDigit 16 c = false ∧ c ≠ '.' ∧ c ≠ ':') : Stops (c :: cs) := by
  refine ⟨endsGroup_cons ⟨h.1, h.2.1⟩, ?_⟩
  rintro cs' ⟨⟩
  exact absurd rfl h.2.2

/-- An IPv6 address with its scope, or none, in brackets, and a port. -/
theorem readSocketAddrV6_fmt (ip : Ipv6Addr) (port : UInt16) (scopeId : UInt32) (scope : List Char)
    (hstops : Stops (scope ++ ']' :: ':' :: Nat.toDigits 10 port.toNat))
    (hscope : (readScopeId (scope ++ ']' :: ':' :: Nat.toDigits 10 port.toNat)).getD
      (0, scope ++ ']' :: ':' :: Nat.toDigits 10 port.toNat) = (scopeId, ']' :: ':' :: Nat.toDigits 10 port.toNat)) :
    readSocketAddrV6 ('[' :: (ip.fmt ++ (scope ++ ']' :: ':' :: Nat.toDigits 10 port.toNat))) =
      some (.v6 ip port 0 scopeId, []) := by
  simp only [readSocketAddrV6, readGivenChar_cons, readIpv6Addr_fmt ip hstops, Option.bind_eq_bind, Option.bind_some,
    hscope, readPort_toDigits]
  rfl

/-- **A printed address is read back.** -/
theorem readSocketAddr_fmt (hflow : address.flowinfo = 0) : readSocketAddr address.fmt = some (address, []) := by
  cases address with
  | v4 ip port =>
    have hv4 : readSocketAddrV4 (SocketAddr.v4 ip port).fmt = some (.v4 ip port, []) :=
      readSocketAddrV4_eq_some.2 ⟨ip, port, _, by rw [List.append_nil]; rfl, numeral_port port,
        value_toDigits (by decide) (by decide) _, ends_nil 10, rfl⟩
    rw [readSocketAddr, hv4]
    rfl
  | v6 ip port flowinfo scopeId =>
    obtain rfl : flowinfo = 0 := hflow
    have hv4 : ∀ cs, readSocketAddrV4 ('[' :: cs) = none := by
      intro cs
      rw [readSocketAddrV4, readIpv4Addr_eq_none (ends_cons (by decide))]
      rfl
    by_cases hscope : scopeId = 0
    · subst hscope
      have hv6 := readSocketAddrV6_fmt ip port 0 [] (stops_cons (by decide)) rfl
      have htext : (SocketAddr.v6 ip port 0 0).fmt =
          '[' :: (ip.fmt ++ ([] ++ ']' :: ':' :: Nat.toDigits 10 port.toNat)) := by simp [SocketAddr.fmt]
      rw [htext, readSocketAddr, hv4, hv6]
      rfl
    · have hv6 := readSocketAddrV6_fmt ip port scopeId ('%' :: Nat.toDigits 10 scopeId.toNat)
        (stops_cons (by decide)) (by
          rw [List.cons_append, readScopeId_toDigits scopeId (ends_cons (by decide))]
          rfl)
      have htext : (SocketAddr.v6 ip port 0 scopeId).fmt = '[' :: (ip.fmt ++
          ('%' :: Nat.toDigits 10 scopeId.toNat ++ ']' :: ':' :: Nat.toDigits 10 port.toNat)) := by
        simp [SocketAddr.fmt, hscope]
      rw [htext, readSocketAddr, hv4, hv6]
      rfl

/-! ## The whole text -/

theorem SocketAddr.fromStr_eq_some : SocketAddr.fromStr s = some address ↔
    readSocketAddr s.toList = some (address, []) := by
  unfold SocketAddr.fromStr
  split
  · rename_i address' h
    simp [h]
  · rename_i h
    simp only [reduceCtorEq, false_iff]
    exact fun h' => h address h'

/-- An address that is read is printed as a text that is read as this address. -/
theorem SocketAddr.fromStr_toText (h : SocketAddr.fromStr s = some address) :
    SocketAddr.fromStr address.toText = some address := by
  rw [SocketAddr.fromStr_eq_some] at h ⊢
  rw [SocketAddr.toText, String.toList_ofList]
  exact readSocketAddr_fmt (flowinfo_of_readSocketAddr h)

/-- Outside of brackets only IPv4 addresses with a port of digits are read. -/
theorem SocketAddr.fromStr_of_head (hs : s.toList.head? ≠ some '[') : SocketAddr.fromStr s = some address ↔
    ∃ ip port digits, s.toList = ip.fmt ++ ':' :: digits ∧ U16.Numeral digits ∧ value 10 digits = port.toNat ∧
      address = .v4 ip port := by
  have hread : readSocketAddr s.toList = some (address, []) ↔ readSocketAddrV4 s.toList = some (address, []) := by
    have hv6 : readSocketAddrV6 s.toList = none := by
      cases hr : readSocketAddrV6 s.toList with
      | none => rfl
      | some r => exact absurd (head?_of_readSocketAddrV6 hr) hs
    rw [readSocketAddr, hv6]
    cases readSocketAddrV4 s.toList <;> rfl
  rw [SocketAddr.fromStr_eq_some, hread, readSocketAddrV4_eq_some]
  constructor
  · rintro ⟨ip, port, digits, hs, hd, hvalue, -, rfl⟩
    exact ⟨ip, port, digits, by rw [hs, List.append_nil], hd, hvalue, rfl⟩
  · rintro ⟨ip, port, digits, hs, hd, hvalue, rfl⟩
    exact ⟨ip, port, digits, by rw [hs, List.append_nil], hd, hvalue, ends_nil 10, rfl⟩

end SocketAddr

end LzcSdk
