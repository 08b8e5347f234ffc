import Dnsconfd.ServerTable

/-!
# Well-formed servers

Servers enter through four parsers: dictionaries on D-Bus and the static servers of the
configuration file in the daemon, JSON texts and URIs in its client.  `IsParsed` is what all of
them ensure of the fields they read; `ServerUri.WellFormed` is what the daemon's parsers ensure
once the defaults are filled in and what the rest of the daemon relies on without checking it.
-/

namespace Dnsconfd

open Library

/-- A network as it is written in CIDR notation. -/
def NetworkAddress.IsCidr (network : NetworkAddress) : Prop :=
  (∃ a, network.address = .inet a 0 ∧ network.prefixLength.toNat ≤ 32) ∨
    ∃ a, network.address = .inet6 a 0 ∧ network.prefixLength.toNat ≤ 128

/-- What every parser of servers ensures, those of the daemon and those of its client. -/
structure IsParsed (s : ServerUri) : Prop where
  address : s.address.isIp = true
  interface : s.interface.utf8ByteSize < ifNamSiz
  dnssec : s.dnssec = 0 ∨ s.dnssec = 1
  protocol : s.protocol ≠ .protocolsEnd
  networks : ∀ network ∈ s.networks, network.IsCidr

/-- `parse_ip_str` accepts addresses of the two families only and leaves the port alone. -/
lemma parseIpStr_cases {net : Inet} {text : String} {port : UInt16} {address : SockAddr}
    (h : parseIpStr net text port = some address) :
    (∃ a, address = .inet a port) ∨ ∃ a, address = .inet6 a port := by
  unfold parseIpStr at h
  cases h4 : net.pton4 text with
  | some a =>
    rw [h4] at h
    exact Or.inl ⟨a, (Option.some.inj h).symm⟩
  | none =>
    cases h6 : net.pton6 text with
    | none => simp [h4, h6] at h
    | some a =>
      simp only [h4, h6] at h
      exact Or.inr ⟨a, (Option.some.inj h).symm⟩

/-! ## Networks as texts -/

/-- The length of the longest prefix of an address. -/
def SockAddr.maxPrefixLength : SockAddr → ℕ
  | .inet _ _ => 32
  | _ => 128

/-- The parts of a text before its first slash and from there on. -/
lemma split_append_slash {address length : String} (hslash : '/' ∉ address.toList) :
    (address ++ "/" ++ length).toList.takeWhile (fun c => decide (c ≠ '/')) = address.toList ∧
      (address ++ "/" ++ length).toList.dropWhile (fun c => decide (c ≠ '/')) =
        '/' :: length.toList := by
  have hlist : (address ++ "/" ++ length).toList = address.toList ++ '/' :: length.toList := by
    simp
  have hbefore : ∀ c ∈ address.toList, (decide (c ≠ '/')) = true := by
    intro c hc
    simp only [ne_eq, decide_eq_true_eq]
    rintro rfl
    exact hslash hc
  rw [hlist, List.takeWhile_append_of_pos hbefore, List.dropWhile_append_of_pos hbefore]
  simp

/-- A text is taken apart at its first slash. -/
lemma networkAddressFromString_append {net : Inet} {address length : String}
    (hslash : '/' ∉ address.toList) :
    networkAddressFromString net (address ++ "/" ++ length) =
      if inet6AddrStrLen ≤ address.utf8ByteSize then none
      else if (strtol length.toList).2 ≠ [] ∨ (strtol length.toList).1 < 0 ∨
          128 < (strtol length.toList).1 then none
      else
        match parseIpStr net address 0 with
        | some (.inet a p) =>
          if 32 < (strtol length.toList).1 then none
          else some ⟨.inet a p, UInt8.ofNat (strtol length.toList).1.toNat⟩
        | some addr => some ⟨addr, UInt8.ofNat (strtol length.toList).1.toNat⟩
        | none => none := by
  obtain ⟨htake, hdrop⟩ := @split_append_slash address length hslash
  unfold networkAddressFromString
  rw [hdrop]
  rcases hparsed : parseIpStr net address 0 with _ | _ | _ | _ <;>
    simp only [htake, String.ofList_toList, hparsed]

/-- A text without a slash is not a network. -/
lemma networkAddressFromString_of_not_mem {net : Inet} {text : String} (h : '/' ∉ text.toList) :
    networkAddressFromString net text = none := by
  have hdrop : text.toList.dropWhile (fun c => decide (c ≠ '/')) = [] := by
    rw [List.dropWhile_eq_nil_iff]
    intro c hc
    simp only [ne_eq, decide_eq_true_eq]
    rintro rfl
    exact h hc
  unfold networkAddressFromString
  rw [hdrop]

/-- A network is an address that fits the buffer, a slash and a text that `strtol` reads to its end,
with a value in the range of the family. -/
theorem networkAddressFromString_eq_some_iff {net : Inet} {text : String}
    {network : NetworkAddress} :
    networkAddressFromString net text = some network ↔
      ∃ address length : String, text = address ++ "/" ++ length ∧ '/' ∉ address.toList ∧
        address.utf8ByteSize < inet6AddrStrLen ∧ (strtol length.toList).2 = [] ∧
        0 ≤ (strtol length.toList).1 ∧
        (strtol length.toList).1 ≤ network.address.maxPrefixLength ∧
        parseIpStr net address 0 = some network.address ∧
        network.prefixLength = UInt8.ofNat (strtol length.toList).1.toNat := by
  constructor
  · intro h
    have hmem : '/' ∈ text.toList := by
      by_contra hnone
      rw [networkAddressFromString_of_not_mem hnone] at h
      cases h
    obtain ⟨before, after, htext, hslash⟩ := List.eq_append_cons_of_mem hmem
    obtain rfl : text = String.ofList before ++ "/" ++ String.ofList after := by
      apply String.toList_injective
      simp [htext]
    refine ⟨String.ofList before, String.ofList after, rfl, by simpa using hslash, ?_⟩
    rw [networkAddressFromString_append (by simpa using hslash)] at h
    split at h
    · cases h
    rename_i hfits
    split at h
    · cases h
    rename_i hrange
    simp only [not_or, not_not, not_lt] at hrange
    obtain ⟨hend, hmin, hmax⟩ := hrange
    refine ⟨Nat.lt_of_not_le hfits, hend, hmin, ?_⟩
    split at h
    · rename_i a p hparse
      split at h
      · cases h
      rename_i h32
      obtain rfl := Option.some.inj h
      exact ⟨not_lt.mp h32, hparse, rfl⟩
    · rename_i address hne hparse
      obtain rfl := Option.some.inj h
      refine ⟨?_, hparse, rfl⟩
      cases address with
      | unspec => exact hmax
      | inet a p => exact absurd rfl (hne a p)
      | inet6 a p => exact hmax
    · cases h
  · rintro ⟨address, length, rfl, hslash, hfits, hend, hmin, hmax, hparse, hlength⟩
    obtain ⟨family, prefixLength⟩ := network
    have hle : (family.maxPrefixLength : ℤ) ≤ 128 := by
      cases family <;> simp [SockAddr.maxPrefixLength]
    have hrange : ¬ ((strtol length.toList).2 ≠ [] ∨ (strtol length.toList).1 < 0 ∨
        128 < (strtol length.toList).1) := by
      simp only [not_or, not_not, not_lt]
      exact ⟨hend, hmin, hmax.trans hle⟩
    rw [networkAddressFromString_append hslash, if_neg (Nat.not_le.mpr hfits), if_neg hrange, hparse]
    dsimp only at hlength
    subst hlength
    cases family with
    | unspec => rfl
    | inet a p => exact if_neg (not_lt.mpr hmax)
    | inet6 a p => rfl

/-- `network_address_t_from_string` accepts networks only. -/
lemma isCidr_of_networkAddressFromString {net : Inet} {text : String} {network : NetworkAddress}
    (h : networkAddressFromString net text = some network) : network.IsCidr := by
  obtain ⟨address, length, -, -, -, -, hmin, hmax, hparse, hlength⟩ :=
    networkAddressFromString_eq_some_iff.mp h
  have hle : network.prefixLength.toNat ≤ network.address.maxPrefixLength := by
    rw [hlength, UInt8.toNat_ofNat']
    have hvalue : (strtol length.toList).1.toNat ≤ network.address.maxPrefixLength := by omega
    exact (Nat.mod_le _ _).trans hvalue
  rcases parseIpStr_cases hparse with ⟨a, ha⟩ | ⟨a, ha⟩
  · rw [ha] at hle
    exact Or.inl ⟨a, ha, hle⟩
  · rw [ha] at hle
    exact Or.inr ⟨a, ha, hle⟩

/-! ## Parsed servers -/

/-- A port does not change the family of an address. -/
@[simp] lemma SockAddr.isIp_withPort (address : SockAddr) (port : UInt16) :
    (address.withPort port).isIp = address.isIp := by
  cases address <;> rfl

lemma isIp_of_parseIpStr {net : Inet} {text : String} {port : UInt16} {address : SockAddr}
    (h : parseIpStr net text port = some address) : address.isIp = true := by
  rcases parseIpStr_cases h with ⟨a, rfl⟩ | ⟨a, rfl⟩ <;> rfl

namespace IsParsed

variable {uri : ServerUri}

/-- The lists of domains may be anything. -/
lemma withDomains {routing search : List String} (h : IsParsed uri) :
    IsParsed { uri with routingDomains := routing, searchDomains := search } :=
  ⟨h.address, h.interface, h.dnssec, h.protocol, h.networks⟩

/-- The CA and the name may be anything. -/
lemma withNames {ca name : Option String} (h : IsParsed uri) :
    IsParsed { uri with certificationAuthority := ca, name := name } :=
  ⟨h.address, h.interface, h.dnssec, h.protocol, h.networks⟩

lemma withDnssec {dnssec : UInt8} (h : IsParsed uri) (hd : dnssec = 0 ∨ dnssec = 1) :
    IsParsed { uri with dnssec := dnssec } :=
  ⟨h.address, h.interface, hd, h.protocol, h.networks⟩

end IsParsed

/-- What the daemon relies on for every server it keeps. -/
structure ServerUri.WellFormed (s : ServerUri) : Prop extends IsParsed s where
  port : s.address.port ≠ 0
  routingDomains : s.routingDomains ≠ []

/-- The networks of a well-formed server are of a known family. -/
lemma IsParsed.networks_isIp {s : ServerUri} (h : IsParsed s) :
    ∀ network ∈ s.networks, network.address.isIp = true := by
  intro network hnetwork
  rcases h.networks network hnetwork with ⟨a, ha, -⟩ | ⟨a, ha, -⟩
  · rw [ha]
    rfl
  · rw [ha]
    rfl

/-- `ip_to_str` fails for no address of a known family. -/
lemma ipToStr_isSome (net : Inet) {address : SockAddr} (h : address.isIp = true) :
    (ipToStr net address).isSome = true := by
  cases address with
  | unspec => cases h
  | inet a port => rfl
  | inet6 a port => rfl

/-- A default port that is not zero leaves no address of a known family without a port. -/
lemma port_setDefaultPort_ne_zero {address : SockAddr} (h : address.isIp = true) {port : UInt16}
    (hport : port ≠ 0) : (setDefaultPort address port).port ≠ 0 := by
  cases address with
  | unspec => cases h
  | inet a p =>
    simp only [setDefaultPort, SockAddr.port]
    split
    · exact hport
    · assumption
  | inet6 a p =>
    simp only [setDefaultPort, SockAddr.port]
    split
    · exact hport
    · assumption

@[simp] lemma isIp_setDefaultPort (address : SockAddr) (port : UInt16) :
    (setDefaultPort address port).isIp = address.isIp := by
  cases address <;> rfl

end Dnsconfd
