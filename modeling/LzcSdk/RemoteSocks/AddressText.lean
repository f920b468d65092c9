import LzcSdk.NetText
import LzcSdk.RemoteSocks.Address

/-!
# Socket targets as text

`from_str` reads a socket address, or a name and a port behind the last colon; `Display` prints both in one way. The two
grammars overlap: an IPv4 address is a name too. What the first one does not read and the second one does, an IPv4
address and a port with a sign `+`, becomes a name, which is printed without the sign and is then read as an address.

**Parsing undoes printing exactly for the other texts** (`parse_print_iff`).
-/

namespace LzcSdk.RemoteSocks

open Outcome Scan

/-- `Display`: a custom address is printed without its network. -/
def SocksAddress.toText : SocksAddress → String
  | Ip address => address.toText
  | Domain host port => host ++ ":" ++ Nat.repr port.toNat
  | Custom _ address => address

/-- `str::parse`, with the parser of the standard library. -/
def SocksAddress.parse (value : String) : Outcome Error SocksAddress := SocksAddress.fromStr SocketAddr.fromStr value

/-- What is read from a text is printed as a text that is read as the same. -/
def PrintsBack (value : String) : Prop :=
  ∀ a, SocksAddress.parse value = ok a → SocksAddress.parse a.toText = ok a

/-- An IPv4 address and a port with a sign. -/
def SignedPort (value : String) : Prop :=
  ∃ (ip : Ipv4Addr) (digits : List Char), value.toList = ip.fmt ++ ':' :: '+' :: digits ∧ U16.Numeral digits

/-! ## What is read -/

/-- A name that stands in front of a port: brackets are left to IPv6 addresses. -/
structure IsTargetName (host : String) : Prop where
  name : IsHostName host
  head : host.toList.head? ≠ some '['
  last : host.toList.getLast? ≠ some ']'

theorem IsTargetName.ne_nil {host : String} (h : IsTargetName host) : host.toList ≠ [] := fun hnil =>
  h.name.1.1 (String.toList_injective hnil)

/-- What begins with a name does not begin with a bracket. -/
theorem IsTargetName.head_append {host : String} (h : IsTargetName host) (cs : List Char) :
    (host.toList ++ cs).head? ≠ some '[' := by
  rw [List.head?_append_of_ne_nil _ h.ne_nil]
  exact h.head

section Parse

variable {parseSocketAddr : String → Option SocketAddr} {value host : String} {port : UInt16} {a : SocksAddress}
  {address : SocketAddr} {ip : Ipv4Addr}

/-- Without a socket address, a name and a port are read. -/
theorem fromStr_eq_ok (hnone : parseSocketAddr value = none) : SocksAddress.fromStr parseSocketAddr value = ok a ↔
    ∃ host port after, value.toList = host.toList ++ ':' :: after.toList ∧ ':' ∉ after.toList ∧ IsTargetName host ∧
      Text.parseU16? after = some port ∧ a = .Domain host port := by
  rw [SocksAddress.fromStr, hnone]
  constructor
  · intro h
    obtain ⟨⟨host, after⟩, hsplit, h⟩ := bind_eq_ok.1 h
    dsimp only at h
    split_ifs at h with hbad
    obtain ⟨port, hport, h⟩ := bind_eq_ok.1 h
    obtain ⟨hname, rfl⟩ := domain_eq_ok.1 h
    simp only [not_or] at hbad
    obtain ⟨hvalue, hcolon⟩ := Text.rsplitOnce?_eq_some.1 (okOr_eq_ok.1 hsplit)
    exact ⟨host, port, after, hvalue, hcolon, ⟨hname, hbad.2.1, hbad.2.2⟩, okOr_eq_ok.1 hport, rfl⟩
  · rintro ⟨host, port, after, hvalue, hcolon, hname, hport, rfl⟩
    have hgood : ¬ (host = "" ∨ host.toList.head? = some '[' ∨ host.toList.getLast? = some ']') := by
      simp only [not_or]
      exact ⟨hname.name.1.1, hname.head, hname.last⟩
    simp only [Text.rsplitOnce?_eq_some.2 ⟨hvalue, hcolon⟩, okOr_some, ok_bind, if_neg hgood, hport]
    exact domain_eq_ok.2 ⟨hname.name, rfl⟩

theorem fromStr_of_some (hsome : parseSocketAddr value = some address) :
    SocksAddress.fromStr parseSocketAddr value = ok (.Ip address) := by
  rw [SocksAddress.fromStr, hsome]

/-! ## IPv4 addresses as names -/

/-- The characters of an IPv4 address. -/
theorem plain_of_mem_fmt {c : Char} (h : c ∈ ip.fmt) : c ≠ ':' ∧ c ≠ '[' ∧ c ≠ ']' ∧ c.toNat ≤ 127 ∧
    Text.isWhitespace c = false ∧ Text.isControl c = false := by
  have hdigit : ∀ d < 10, Nat.digitChar d ≠ ':' ∧ Nat.digitChar d ≠ '[' ∧ Nat.digitChar d ≠ ']' ∧
      (Nat.digitChar d).toNat ≤ 127 ∧ Text.isWhitespace (Nat.digitChar d) = false ∧
      Text.isControl (Nat.digitChar d) = false := by decide
  rcases mem_fmt h with ⟨d, hd, rfl⟩ | rfl
  · exact hdigit d hd
  · decide

/-- An IPv4 address can stand where a name can. -/
theorem isTargetName_fmt (ip : Ipv4Addr) : IsTargetName (String.ofList ip.fmt) := by
  have hlen : Text.len (String.ofList ip.fmt) = ip.fmt.length :=
    Text.len_ofList fun c hc => (plain_of_mem_fmt hc).2.2.2.1
  have hne : String.ofList ip.fmt ≠ "" := by
    intro h
    have hnil := congrArg String.toList h
    rw [String.toList_ofList] at hnil
    simp [Ipv4Addr.fmt] at hnil
  refine ⟨⟨⟨hne, ?_⟩, ?_, ?_⟩, ?_, ?_⟩
  · rw [hlen]
    exact (length_fmt_le ip).trans (by decide)
  · rw [String.toList_ofList]
    exact fun h => (plain_of_mem_fmt h).1 rfl
  · rw [String.toList_ofList]
    exact fun c hc => (plain_of_mem_fmt hc).2.2.2.2
  · rw [String.toList_ofList]
    exact fun h => (plain_of_mem_fmt (List.mem_of_head? h)).2.1 rfl
  · rw [String.toList_ofList]
    exact fun h => (plain_of_mem_fmt (List.mem_of_getLast? h)).2.2.1 rfl

/-! ## What is printed -/

theorem toList_toText_domain (host : String) (port : UInt16) :
    (SocksAddress.Domain host port).toText.toList = host.toList ++ ':' :: Nat.toDigits 10 port.toNat := by
  simp [SocksAddress.toText]

/-- A printed name is read as a socket address when it is an IPv4 address. -/
theorem fromStr_toText_domain (hname : IsTargetName host) :
    SocketAddr.fromStr (SocksAddress.Domain host port).toText = some address ↔
      ∃ ip : Ipv4Addr, host.toList = ip.fmt ∧ address = .v4 ip port := by
  have hhead : (SocksAddress.Domain host port).toText.toList.head? ≠ some '[' := by
    rw [toList_toText_domain]
    exact hname.head_append _
  rw [SocketAddr.fromStr_of_head hhead, toList_toText_domain]
  constructor
  · rintro ⟨ip, port', digits, htext, -, hvalue, rfl⟩
    obtain ⟨hhost, rfl⟩ := Text.append_cons_inj hname.name.2.1 (fun h => (plain_of_mem_fmt h).1 rfl) htext
    rw [value_toDigits (by decide) (by decide)] at hvalue
    exact ⟨ip, hhost, by rw [UInt16.toNat_inj.1 hvalue]⟩
  · rintro ⟨ip, hhost, rfl⟩
    exact ⟨ip, port, _, by rw [hhost], numeral_port port, value_toDigits (by decide) (by decide) _, rfl⟩

/-- Another name is read back. -/
theorem parse_toText_domain (hname : IsTargetName host) (hip : ∀ ip : Ipv4Addr, host.toList ≠ ip.fmt) :
    SocksAddress.parse (SocksAddress.Domain host port).toText = ok (.Domain host port) := by
  have hnone : SocketAddr.fromStr (SocksAddress.Domain host port).toText = none := by
    by_contra hsome
    obtain ⟨address, haddress⟩ := Option.ne_none_iff_exists'.1 hsome
    obtain ⟨ip, hhost, -⟩ := (fromStr_toText_domain hname).1 haddress
    exact hip ip hhost
  have hnumeral := numeral_port port
  rw [SocksAddress.parse, fromStr_eq_ok hnone]
  refine ⟨host, port, String.ofList (Nat.toDigits 10 port.toNat), ?_, ?_, hname, ?_, rfl⟩
  · rw [String.toList_ofList, toList_toText_domain]
  · rw [String.toList_ofList]
    exact fun h => absurd (hnumeral.digit ':' h) (by decide)
  · exact parseU16?_eq_some.2 ⟨_, .inl String.toList_ofList, hnumeral, value_toDigits (by decide) (by decide) _⟩

/-! ## Texts that are not printed back -/

/-- With a sign, an IPv4 address is read as a name, and what is printed for it is read as the address. -/
theorem parse_signedPort {digits : List Char} (hvalue : value.toList = ip.fmt ++ ':' :: '+' :: digits)
    (hd : U16.Numeral digits) (hport : Scan.value 10 digits = port.toNat) :
    SocksAddress.parse value = ok (.Domain (String.ofList ip.fmt) port) ∧
      SocksAddress.parse (SocksAddress.Domain (String.ofList ip.fmt) port).toText = ok (.Ip (.v4 ip port)) := by
  have hname := isTargetName_fmt ip
  have hcolon : ':' ∉ ip.fmt := fun h => (plain_of_mem_fmt h).1 rfl
  have hhead : value.toList.head? ≠ some '[' := by
    rw [hvalue, ← String.toList_ofList (l := ip.fmt)]
    exact hname.head_append _
  have hnone : SocketAddr.fromStr value = none := by
    by_contra hsome
    obtain ⟨address, haddress⟩ := Option.ne_none_iff_exists'.1 hsome
    obtain ⟨ip', port', digits', htext, hd', -, -⟩ := (SocketAddr.fromStr_of_head hhead).1 haddress
    rw [hvalue] at htext
    obtain ⟨-, rfl⟩ := Text.append_cons_inj hcolon (fun h => (plain_of_mem_fmt h).1 rfl) htext
    exact absurd (hd'.digit '+' List.mem_cons_self) (by decide)
  constructor
  · rw [SocksAddress.parse, fromStr_eq_ok hnone]
    refine ⟨String.ofList ip.fmt, port, String.ofList ('+' :: digits), ?_, ?_, hname, ?_, rfl⟩
    · rw [String.toList_ofList, String.toList_ofList]
      exact hvalue
    · rw [String.toList_ofList, List.mem_cons]
      rintro (h | h)
      · exact absurd h (by decide)
      · exact absurd (hd.digit ':' h) (by decide)
    · exact parseU16?_eq_some.2 ⟨digits, .inr String.toList_ofList, hd, hport⟩
  · exact fromStr_of_some ((fromStr_toText_domain hname).2 ⟨ip, String.toList_ofList, rfl⟩)

/-- A name that is an IPv4 address is read only in front of a sign. -/
theorem signedPort_of_parse (hnone : SocketAddr.fromStr value = none) {after : String}
    (hvalue : value.toList = host.toList ++ ':' :: after.toList) (hname : IsTargetName host)
    (hport : Text.parseU16? after = some port) (hip : host.toList = ip.fmt) : SignedPort value := by
  obtain ⟨digits, hafter | hafter, hd, hdigits⟩ := parseU16?_eq_some.1 hport
  · -- without a sign, the first grammar reads the text
    have hhead : value.toList.head? ≠ some '[' := hvalue ▸ hname.head_append _
    have hsome : SocketAddr.fromStr value = some (.v4 ip port) := (SocketAddr.fromStr_of_head hhead).2
      ⟨ip, port, digits, by rw [hvalue, hip, hafter], hd, hdigits, rfl⟩
    exact absurd (hnone.symm.trans hsome) (by simp)
  · exact ⟨ip, digits, by rw [hvalue, hip, hafter], hd⟩

/-- **Parsing undoes printing exactly without a sign behind an IPv4 address.** With one, the text is read as a name, and
the text that is printed for it as the IPv4 address. -/
theorem parse_print_iff (value : String) : (PrintsBack value ↔ ¬ SignedPort value) ∧
    ∀ (ip : Ipv4Addr) (port : UInt16) (digits : List Char), value.toList = ip.fmt ++ ':' :: '+' :: digits →
      U16.Numeral digits → Scan.value 10 digits = port.toNat →
      SocksAddress.parse value = ok (.Domain (String.ofList ip.fmt) port) ∧
        SocksAddress.parse (SocksAddress.Domain (String.ofList ip.fmt) port).toText = ok (.Ip (.v4 ip port)) := by
  refine ⟨⟨?_, ?_⟩, fun ip port digits hvalue hd hport => parse_signedPort hvalue hd hport⟩
  · rintro hback ⟨ip, digits, hvalue, hd⟩
    have hport : Scan.value 10 digits = (UInt16.ofNat (Scan.value 10 digits)).toNat :=
      (UInt16.toNat_ofNat_of_lt' hd.lt).symm
    obtain ⟨hname, haddress⟩ := parse_signedPort hvalue hd hport
    have hsame := hback _ hname
    rw [haddress] at hsame
    cases hsame
  · intro hplain a ha
    cases haddress : SocketAddr.fromStr value with
    | some address =>
      rw [SocksAddress.parse, fromStr_of_some haddress] at ha
      cases ha
      exact fromStr_of_some (SocketAddr.fromStr_toText haddress)
    | none =>
      obtain ⟨host, port, after, hvalue, -, hname, hport, rfl⟩ := (fromStr_eq_ok haddress).1 ha
      exact parse_toText_domain hname fun ip hip => hplain (signedPort_of_parse haddress hvalue hname hport hip)

/-- A target that is read as a name and printed as an address. -/
theorem signed_port_not_printed_back : ¬ ∀ value, PrintsBack value := by
  intro h
  have hback := h "1.2.3.4:+80" (.Domain "1.2.3.4" 80) (by decide +kernel)
  exact absurd hback (by decide +kernel)

end Parse

end LzcSdk.RemoteSocks
