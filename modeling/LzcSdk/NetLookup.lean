import LzcSdk.NetText

/-!
# Where a connection goes

`ToSocketAddrs` of the standard library for a text and for a host with a port. A text is a socket address, or a host and
a port behind the last colon; a host is an IP address, or a name to look up. For a host without colons and brackets both
are one (`toSocketAddrs_host`), and so they are for an IPv6 address that stands in brackets in the text
(`toSocketAddrs_ipv6`).
-/

namespace LzcSdk

open Scan

/-- `Ipv4Addr::from_str`: the whole text is an address, and it is not too long for one. -/
def Ipv4Addr.fromStr (s : String) : Option Ipv4Addr :=
  if 15 < Text.len s then none
  else
    match readIpv4Addr s.toList with
    | some (ip, []) => some ip
    | _ => none

/-- `Ipv6Addr::from_str`: the whole text is an address. -/
def Ipv6Addr.fromStr (s : String) : Option Ipv6Addr :=
  match readIpv6Addr s.toList with
  | some (ip, []) => some ip
  | _ => none

/-- An address, or a name that is looked up. -/
inductive Target where
  | addr (address : SocketAddr)
  | lookup (host : String) (port : UInt16)
  deriving DecidableEq, Repr

/-- `ToSocketAddrs` for a host and a port. -/
def hostToSocketAddrs (host : String) (port : UInt16) : Target :=
  match Ipv4Addr.fromStr host, Ipv6Addr.fromStr host with
  | some ip, _ => .addr (.v4 ip port)
  | none, some ip => .addr (.v6 ip port 0 0)
  | none, none => .lookup host port

/-- `ToSocketAddrs` for a text. -/
def toSocketAddrs (s : String) : Option Target :=
  match SocketAddr.fromStr s with
  | some address => some (.addr address)
  | none => do
    let (host, portStr) ← Text.rsplitOnce? s ':'
    let port ← Text.parseU16? portStr
    return hostToSocketAddrs host port

/-! ## Addresses without a port -/

section Ip

variable {s : String} {cs rest : List Char}

theorem ascii_of_mem_fmt {ip : Ipv4Addr} {c : Char} (h : c ∈ ip.fmt) : c.toNat ≤ 127 ∧ c ≠ ':' := by
  have hdigit : ∀ d < 10, (Nat.digitChar d).toNat ≤ 127 ∧ Nat.digitChar d ≠ ':' := by decide
  rcases mem_fmt h with ⟨d, hd, rfl⟩ | rfl
  · exact hdigit d hd
  · decide

/-- The text of an IPv4 address is the one that is printed. -/
theorem Ipv4Addr.fromStr_eq_some {ip : Ipv4Addr} : Ipv4Addr.fromStr s = some ip ↔ s.toList = ip.fmt := by
  unfold Ipv4Addr.fromStr
  constructor
  · intro h
    split at h
    · cases h
    · split at h
      · rename_i ip' hread
        cases h
        rw [(exists_of_readIpv4Addr hread).1, List.append_nil]
      · cases h
  · intro h
    have hs : s = String.ofList ip.fmt := String.toList_injective (by rw [h, String.toList_ofList])
    have hlen : ¬ 15 < Text.len s := by
      rw [hs, Text.len_ofList fun c hc => (ascii_of_mem_fmt hc).1]
      exact Nat.not_lt.2 (length_fmt_le ip)
    have hread := readIpv4Addr_fmt ip (ends_nil 10)
    rw [List.append_nil] at hread
    rw [if_neg hlen, h, hread]

theorem stops_nil : Stops [] := ⟨fun _ hc => (nomatch hc), fun _ hcs => (nomatch hcs)⟩

/-- A printed IPv6 address is read back. -/
theorem Ipv6Addr.fromStr_fmt (ip : Ipv6Addr) : Ipv6Addr.fromStr (String.ofList ip.fmt) = some ip := by
  have hread := readIpv6Addr_fmt ip stops_nil
  rw [List.append_nil] at hread
  rw [Ipv6Addr.fromStr, String.toList_ofList, hread]

/-! ### IPv6 addresses have colons -/

theorem suffix_of_readGroup {group : UInt16} (h : readGroup cs = some (group, rest)) : rest <:+ cs := by
  obtain ⟨⟨n, cs'⟩, hnumber, hrest⟩ := Option.bind_eq_some_iff.1 h
  cases hrest
  obtain ⟨digits, rfl, -⟩ := exists_of_number hnumber
  exact List.suffix_append digits rest

theorem suffix_of_readSeparator {α : Type} {sep : Char} {inner : List Char → Option (α × List Char)} {a : α}
    (hinner : ∀ cs rest, inner cs = some (a, rest) → rest <:+ cs) :
    ∀ {index : Nat}, readSeparator sep index inner cs = some (a, rest) → rest <:+ cs
  | 0, h => hinner cs rest h
  | index + 1, h => by
    obtain ⟨cs', rfl, hrest⟩ := readSeparator_eq_some h
    exact (hinner cs' rest hrest).trans (List.suffix_cons sep cs')

theorem suffix_of_readGroups : ∀ (n index : Nat) (cs : List Char), (readGroups index n cs).2 <:+ cs
  | 0, _, cs => List.suffix_refl cs
  | n + 1, index, cs => by
    rw [readGroups]
    split
    · rename_i ip cs' hip
      split_ifs at hip
      refine suffix_of_readSeparator (fun cs rest h => ?_) hip
      rw [(exists_of_readIpv4Addr h).1]
      exact List.suffix_append _ rest
    · split
      · rename_i group cs' hgroup
        exact (suffix_of_readGroups n (index + 1) cs').trans
          (suffix_of_readSeparator (fun cs rest h => suffix_of_readGroup h) hgroup)
      · exact List.suffix_refl cs

/-- Groups behind the first one begin with a colon. -/
theorem mem_of_readGroups_succ {index n : Nat} (h : (readGroups (index + 1) n cs).1.1 ≠ []) : ':' ∈ cs := by
  cases n with
  | zero => exact absurd rfl h
  | succ n =>
    rw [readGroups] at h
    split at h
    · rename_i ip cs' hip
      split_ifs at hip
      obtain ⟨cs'', rfl, -⟩ := readSeparator_eq_some hip
      exact List.mem_cons_self
    · split at h
      · rename_i group cs' hgroup
        obtain ⟨cs'', rfl, -⟩ := readSeparator_eq_some hgroup
        exact List.mem_cons_self
      · exact absurd rfl h

/-- One part without a colon is two groups at most. -/
theorem mem_of_readGroups {n : Nat} (h : 2 < (readGroups 0 n cs).1.1.length) : ':' ∈ cs := by
  cases n with
  | zero => exact absurd h (Nat.not_lt_zero 2)
  | succ n =>
    rw [readGroups] at h
    split at h
    · exact absurd h (Nat.lt_irrefl 2)
    · split at h
      · rename_i group cs' hgroup
        have hne : (readGroups 1 n cs').1.1 ≠ [] := by
          intro hnil
          simp [hnil] at h
        exact (suffix_of_readGroup hgroup).subset (mem_of_readGroups_succ hne)
      · exact absurd h (Nat.not_lt_zero 2)

theorem mem_of_readIpv6Addr {ip : Ipv6Addr} (h : readIpv6Addr cs = some (ip, rest)) : ':' ∈ cs := by
  unfold readIpv6Addr at h
  have hsuffix := suffix_of_readGroups 8 0 cs
  have hlong : 2 < (readGroups 0 8 cs).1.1.length → ':' ∈ cs := mem_of_readGroups
  revert h hsuffix hlong
  generalize readGroups 0 8 cs = r
  obtain ⟨⟨head, headIpv4⟩, cs'⟩ := r
  intro h hsuffix hlong
  dsimp only at h hsuffix hlong
  split_ifs at h with hlen hipv4
  · exact hlong (by omega)
  · obtain ⟨cs'', hcolon, -⟩ := Option.bind_eq_some_iff.1 h
    rw [readGivenChar_eq_some.1 hcolon] at hsuffix
    exact hsuffix.subset List.mem_cons_self

theorem Ipv6Addr.fromStr_eq_none (h : ':' ∉ s.toList) : Ipv6Addr.fromStr s = none := by
  unfold Ipv6Addr.fromStr
  split
  · rename_i ip hread
    exact absurd (mem_of_readIpv6Addr hread) h
  · rfl

end Ip

/-! ## A host and a port as one text -/

section Target

variable {host : String} {port : UInt16}

theorem toList_hostPort (host : String) (port : UInt16) :
    (host ++ ":" ++ Nat.repr port.toNat).toList = host.toList ++ ':' :: Nat.toDigits 10 port.toNat := by simp

/-- A host without colons and brackets in front of a port is an IPv4 address or a name. -/
theorem fromStr_hostPort {address : SocketAddr} (hne : host ≠ "") (hcolon : ':' ∉ host.toList)
    (hhead : host.toList.head? ≠ some '[') : SocketAddr.fromStr (host ++ ":" ++ Nat.repr port.toNat) = some address ↔
      ∃ ip, Ipv4Addr.fromStr host = some ip ∧ address = .v4 ip port := by
  have hnil : host.toList ≠ [] := fun h => hne (String.toList_injective h)
  have hfirst : (host ++ ":" ++ Nat.repr port.toNat).toList.head? ≠ some '[' := by
    rw [toList_hostPort, List.head?_append_of_ne_nil _ hnil]
    exact hhead
  rw [SocketAddr.fromStr_of_head hfirst, toList_hostPort]
  constructor
  · rintro ⟨ip, port', digits, htext, -, hvalue, rfl⟩
    obtain ⟨hhost, rfl⟩ := Text.append_cons_inj hcolon (fun h => (ascii_of_mem_fmt h).2 rfl) htext
    rw [value_toDigits (by decide) (by decide)] at hvalue
    exact ⟨ip, Ipv4Addr.fromStr_eq_some.2 hhost, by rw [UInt16.toNat_inj.1 hvalue]⟩
  · rintro ⟨ip, hip, rfl⟩
    rw [Ipv4Addr.fromStr_eq_some] at hip
    exact ⟨ip, port, _, by rw [hip], numeral_port port, value_toDigits (by decide) (by decide) _, rfl⟩

theorem rsplitOnce_hostPort (host : String) (port : UInt16) :
    Text.rsplitOnce? (host ++ ":" ++ Nat.repr port.toNat) ':' =
    some (host, Nat.repr port.toNat) := by
  have hdigits : (Nat.repr port.toNat).toList = Nat.toDigits 10 port.toNat := by simp
  refine Text.rsplitOnce?_eq_some.2 ⟨by rw [toList_hostPort, hdigits], ?_⟩
  rw [hdigits]
  exact fun h => absurd ((numeral_port port).digit ':' h) (by decide)

theorem parseU16_port (port : UInt16) : Text.parseU16? (Nat.repr port.toNat) = some port :=
  parseU16?_eq_some.2 ⟨_, .inl (by simp), numeral_port port, value_toDigits (by decide) (by decide) _⟩

/-- **A host without colons and brackets**, in front of its port, is where the host with the port is. -/
theorem toSocketAddrs_host (hne : host ≠ "") (hcolon : ':' ∉ host.toList) (hhead : host.toList.head? ≠ some '[') :
    toSocketAddrs (host ++ ":" ++ Nat.repr port.toNat) = some (hostToSocketAddrs host port) := by
  unfold toSocketAddrs
  cases haddress : SocketAddr.fromStr (host ++ ":" ++ Nat.repr port.toNat) with
  | some address =>
    obtain ⟨ip, hip, rfl⟩ := (fromStr_hostPort hne hcolon hhead).1 haddress
    simp only [hostToSocketAddrs, hip]
  | none =>
    simp only [rsplitOnce_hostPort, Option.bind_eq_bind, Option.bind_some, parseU16_port]
    rfl

theorem hostToSocketAddrs_ipv4 (ip : Ipv4Addr) (port : UInt16) :
    hostToSocketAddrs (String.ofList ip.fmt) port = .addr (.v4 ip port) := by
  have hip : Ipv4Addr.fromStr (String.ofList ip.fmt) = some ip := Ipv4Addr.fromStr_eq_some.2 String.toList_ofList
  simp only [hostToSocketAddrs, hip]

/-- **An IPv6 address in brackets**, in front of its port, is where the address with the port is. -/
theorem toSocketAddrs_ipv6 (ip : Ipv6Addr) (port : UInt16) :
    toSocketAddrs (SocketAddr.v6 ip port 0 0).toText = some (.addr (.v6 ip port 0 0)) := by
  have hread : SocketAddr.fromStr (SocketAddr.v6 ip port 0 0).toText = some (.v6 ip port 0 0) := by
    rw [SocketAddr.fromStr_eq_some, SocketAddr.toText, String.toList_ofList]
    exact readSocketAddr_fmt rfl
  simp only [toSocketAddrs, hread]

theorem mem_fmt_ipv6 (ip : Ipv6Addr) : ':' ∈ ip.fmt := by
  have hread := readIpv6Addr_fmt ip stops_nil
  rw [List.append_nil] at hread
  exact mem_of_readIpv6Addr hread

theorem hostToSocketAddrs_ipv6 (ip : Ipv6Addr) (port : UInt16) :
    hostToSocketAddrs (String.ofList ip.fmt) port = .addr (.v6 ip port 0 0) := by
  have hip : Ipv4Addr.fromStr (String.ofList ip.fmt) = none := by
    by_contra hsome
    obtain ⟨ipv4, hipv4⟩ := Option.ne_none_iff_exists'.1 hsome
    rw [Ipv4Addr.fromStr_eq_some, String.toList_ofList] at hipv4
    exact (ascii_of_mem_fmt (hipv4 ▸ mem_fmt_ipv6 ip)).2 rfl
  simp only [hostToSocketAddrs, hip, Ipv6Addr.fromStr_fmt]

end Target

end LzcSdk
