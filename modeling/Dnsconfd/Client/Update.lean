import Dnsconfd.Client.ServerUri
import Dnsconfd.DbusServer.Daemon
import Dnsconfd.DbusServer.Duplicates
import Mathlib.Data.Nat.Digits.Defs

/-!
# What the client sends is what the daemon stores

`build_servers_variant` turns the client's servers into the dictionaries of an Update call, and
the daemon decodes them again.  The two sides are separate code; what they agree on is the
relation `Carries` between a dictionary and the server it describes.  Decoding a dictionary that
carries a server gives the `normalForm` of the server (`parseServerDict_of_carries`), and so the
daemon decodes exactly the normal forms of what the client sends
(`update_call_carries_servers`).
-/

namespace Dnsconfd

open Library

/-! ## The message -/

/-- `network_address_to_string`; the buffer is large enough for the text of every address. -/
def networkAddressToString (net : Inet) (network : NetworkAddress) : String :=
  (ipToStr net network.address).getD "" ++ "/" ++ toString network.prefixLength.toNat

/-- An entry that is only added to a dictionary if there is a value. -/
def optionalEntry (key : String) (value : Option Variant) : VariantDict :=
  match value with
  | some v => [(key, v)]
  | none => []

/-- The dictionary that `build_servers_variant` builds for one server. -/
def serverDict (net : Inet) (server : ServerUri) : VariantDict :=
  let port := server.address.port
  [("address", .string ((ipToStr net server.address).getD ""))] ++
    optionalEntry "port" (if 0 < port then some (.int32 (Int32.ofNat port.toNat)) else none) ++
    [("priority", .int32 server.priority)] ++
    [("protocol", .string server.protocol.toText)] ++
    optionalEntry "interface"
      (if server.interface ≠ "" then some (.string server.interface) else none) ++
    [("dnssec", .boolean (server.dnssec ≠ 0))] ++
    optionalEntry "ca" (server.certificationAuthority.map .string) ++
    optionalEntry "name" (server.name.map .string) ++
    optionalEntry "routing_domains"
      (if server.routingDomains ≠ [] then some (.stringArray server.routingDomains) else none) ++
    optionalEntry "search_domains"
      (if server.searchDomains ≠ [] then some (.stringArray server.searchDomains) else none) ++
    optionalEntry "networks"
      (if server.networks ≠ [] then
        some (.stringArray (server.networks.map (networkAddressToString net)))
      else none)

/-- `build_servers_variant`. -/
def buildServersVariant (net : Inet) (servers : List ServerUri) : List VariantDict :=
  servers.map (serverDict net)

/-- Of two dictionaries in a row the values of the second one count. -/
lemma dictValue_append (dict₁ dict₂ : VariantDict) (key : String) :
    dictValue (dict₁ ++ dict₂) key = (dictValue dict₂ key).or (dictValue dict₁ key) := by
  induction dict₁ with
  | nil => simp [dictValue]
  | cons entry dict₁ ih => simp [dictValue, ih, Option.or_assoc]

lemma dictValue_optionalEntry (key key' : String) (value : Option Variant) :
    dictValue (optionalEntry key value) key' = if key = key' then value else none := by
  cases value with
  | none => simp [optionalEntry, dictValue]
  | some v => simp [optionalEntry, dictValue]

/-- The dictionary has the fields of the server, with those that have their default value left
out. -/
structure Carries (net : Inet) (dict : VariantDict) (s : ServerUri) : Prop where
  address : dictString dict "address" = some ((ipToStr net s.address).getD "")
  port : dictInt32 dict "port" =
    if 0 < s.address.port then some (Int32.ofNat s.address.port.toNat) else none
  priority : dictInt32 dict "priority" = some s.priority
  protocol : dictString dict "protocol" = some s.protocol.toText
  interface : dictString dict "interface" = if s.interface ≠ "" then some s.interface else none
  dnssec : dictBoolean dict "dnssec" = some (decide (s.dnssec ≠ 0))
  ca : dictString dict "ca" = s.certificationAuthority
  name : dictString dict "name" = s.name
  routingDomains : dictStringArray dict "routing_domains" =
    if s.routingDomains ≠ [] then some s.routingDomains else none
  searchDomains : dictStringArray dict "search_domains" =
    if s.searchDomains ≠ [] then some s.searchDomains else none
  networks : dictStringArray dict "networks" =
    if s.networks ≠ [] then some (s.networks.map (networkAddressToString net)) else none

/-- The client's dictionary carries the server. -/
theorem carries_serverDict (net : Inet) (s : ServerUri) : Carries net (serverDict net s) s := by
  constructor
  all_goals
    simp only [dictString, dictInt32, dictBoolean, dictStringArray, serverDict, dictValue_append,
      dictValue_optionalEntry, dictValue]
  · simp
  · by_cases h : 0 < s.address.port <;> simp [h]
  · simp
  · simp
  · by_cases h : s.interface = "" <;> simp [h]
  · simp
  · cases s.certificationAuthority <;> simp
  · cases s.name <;> simp
  · by_cases h : s.routingDomains = [] <;> simp [h]
  · by_cases h : s.searchDomains = [] <;> simp [h]
  · by_cases h : s.networks = [] <;> simp [h]

/-! ## Addresses and networks as text -/

/-- What is assumed of the C library: `inet_pton` inverts `inet_ntop`, the text of an IPv6 address
is not the text of an IPv4 address, and the text of an address has no slash and fits a buffer of
`INET6_ADDRSTRLEN` bytes. -/
structure Inet.Lawful (net : Inet) : Prop where
  pton4_ntop4 : ∀ a, net.pton4 (net.ntop4 a) = some a
  pton6_ntop6 : ∀ a, net.pton6 (net.ntop6 a) = some a
  pton4_ntop6 : ∀ a, net.pton4 (net.ntop6 a) = none
  no_slash : ∀ address text, ipToStr net address = some text → '/' ∉ text.toList
  fits : ∀ address text, ipToStr net address = some text → text.utf8ByteSize < inet6AddrStrLen

/-- The text of an address is read back as the address, with the port that was there. -/
lemma parseIpStr_ipToStr {net : Inet} (hnet : net.Lawful) {address : SockAddr}
    (h : address.isIp = true) :
    ∃ text, ipToStr net address = some text ∧
      ∀ port, parseIpStr net text port = some (address.withPort port) := by
  cases address with
  | unspec => cases h
  | inet a port =>
    refine ⟨net.ntop4 a, rfl, fun port' => ?_⟩
    rw [parseIpStr, hnet.pton4_ntop4]
    rfl
  | inet6 a port =>
    refine ⟨net.ntop6 a, rfl, fun port' => ?_⟩
    rw [parseIpStr, hnet.pton4_ntop6, hnet.pton6_ntop6]
    rfl

/-- A network that was read from text is read back from the text written for it. -/
lemma networkAddressFromString_toString {net : Inet} (hnet : net.Lawful)
    {network : NetworkAddress} (h : network.IsCidr) :
    networkAddressFromString net (networkAddressToString net network) = some network := by
  have hdigits : strtol (toString network.prefixLength.toNat).toList =
      ((network.prefixLength.toNat : ℤ), []) := by
    have hlist : (toString network.prefixLength.toNat).toList =
        Nat.toDigits 10 network.prefixLength.toNat := by
      simp [toString, Nat.repr]
    rw [hlist]
    refine strtol_toDigits ?_
    have hlt := network.prefixLength.toNat_lt
    omega
  have hcidr : network.address.isIp = true ∧ network.address.withPort 0 = network.address ∧
      network.prefixLength.toNat ≤ network.address.maxPrefixLength := by
    rcases h with ⟨a, haddress, hlength⟩ | ⟨a, haddress, hlength⟩
    · rw [haddress]
      exact ⟨rfl, rfl, hlength⟩
    · rw [haddress]
      exact ⟨rfl, rfl, hlength⟩
  obtain ⟨hip, hport, hlength⟩ := hcidr
  obtain ⟨text, htext, hparse⟩ := parseIpStr_ipToStr hnet hip
  rw [networkAddressToString, htext, Option.getD_some, networkAddressFromString_eq_some_iff]
  refine ⟨text, toString network.prefixLength.toNat, rfl, hnet.no_slash _ _ htext,
    hnet.fits _ _ htext, ?_⟩
  rw [hdigits, hparse, hport]
  exact ⟨rfl, Int.natCast_nonneg _, Int.ofNat_le.mpr hlength, rfl, by simp⟩

/-- All networks of a server are read back. -/
lemma mapM_networks {net : Inet} (hnet : net.Lawful) {networks : List NetworkAddress}
    (h : ∀ network ∈ networks, network.IsCidr) :
    (networks.map (networkAddressToString net)).mapM (networkAddressFromString net) =
      some networks := by
  induction networks with
  | nil => rfl
  | cons network networks ih =>
    rw [List.map_cons, List.mapM_cons,
      networkAddressFromString_toString hnet (h network List.mem_cons_self),
      ih fun n hn => h n (List.mem_cons_of_mem _ hn)]
    rfl

/-- The text of a protocol is read back. -/
lemma protocolFromNstring_toText {protocol : DnsProtocol} (h : protocol ≠ .protocolsEnd) :
    protocolFromNstring protocol.toText = protocol := by
  cases protocol with
  | udp => decide
  | tcp => decide
  | tls => decide
  | protocolsEnd => exact absurd rfl h

/-! ## Decoding a dictionary that carries a server -/

/-- The normal form of a domain: the empty string is the root domain, a string with two dots in a
row has none, and otherwise it is what libidn2 makes of it. -/
def normalDomain (p : Platform) (domain : String) : Option String :=
  if domain = "" then some "."
  else if "..".toList <:+: domain.toList then none
  else p.idn2LookupU8 domain

/-- The normal form of a server: the port of the protocol if there is none, the root domain if
there is no routing domain, and the normal forms of all domains. -/
def normalForm (p : Platform) (s : ServerUri) : Option ServerUri := do
  let routingDomains ← s.routingDomains.mapM (normalDomain p)
  let searchDomains ← s.searchDomains.mapM (normalDomain p)
  return { s with
    address :=
      if s.address.port = 0 then s.address.withPort (if s.protocol = .tls then 853 else 53)
      else s.address
    routingDomains := if s.routingDomains = [] then ["."] else routingDomains
    searchDomains := searchDomains }

/-- The result of decoding, where only domains can fail. -/
def orInvalidDomain {α : Type} : Option α → Except ParseError α
  | some a => .ok a
  | none => .error .invalidDomain

section Fields

variable {p : Platform} {s u : ServerUri}

/-- The port is stored in an address that has none yet. -/
lemma parsePresent_port (haddress : u.address = s.address.withPort 0) :
    parsePresent (if 0 < s.address.port then some (Int32.ofNat s.address.port.toNat) else none)
      parsePort u = .ok { u with address := s.address } := by
  have hself : s.address.withPort s.address.port = s.address := by cases s.address <;> rfl
  have hagain : ∀ port, u.address.withPort port = s.address.withPort port := by
    intro port
    rw [haddress]
    cases s.address <;> rfl
  by_cases hport : 0 < s.address.port
  · have hlt := s.address.port.toNat_lt
    have hint : (Int32.ofNat s.address.port.toNat).toInt = s.address.port.toNat :=
      Int32.toInt_ofNat_of_lt (by omega)
    have hrange : ¬ (Int32.ofNat s.address.port.toNat < 0 ∨
        65535 < Int32.ofNat s.address.port.toNat) := by
      rw [Int32.lt_iff_toInt_lt, Int32.lt_iff_toInt_lt, hint]
      have hmax : (65535 : Int32).toInt = 65535 := by decide
      have hzero : (0 : Int32).toInt = 0 := by decide
      omega
    simp only [hport, if_true, parsePresent, parsePort, hrange, if_false, hint,
      Int.toNat_natCast, UInt16.ofNat_toNat, hagain, hself]
  · have hzero : s.address.port = 0 := by
      rw [UInt16.lt_iff_toNat_lt] at hport
      rw [← UInt16.toNat_inj]
      simpa using hport
    rw [if_neg hport, parsePresent, ← hself, hzero, ← haddress]

/-- The priority is stored. -/
lemma parsePresent_priority (priority : Int32) :
    parsePresent (some priority) parsePriority u = .ok { u with priority := priority } := rfl

/-- The protocol is stored. -/
lemma parsePresent_protocol (hs : s.protocol ≠ .protocolsEnd) :
    parsePresent (some s.protocol.toText) parseProtocol u =
      .ok { u with protocol := s.protocol } := by
  simp [parsePresent, parseProtocol, protocolFromNstring_toText hs, hs]

/-- An interface name is stored unless it is empty, as it is at the start. -/
lemma parsePresent_interface (hempty : u.interface = "")
    (hs : s.interface.utf8ByteSize < ifNamSiz) :
    parsePresent (if s.interface ≠ "" then some s.interface else none) parseInterface u =
      .ok { u with interface := s.interface } := by
  by_cases h : s.interface = ""
  · rw [h, ← hempty]
    simp [parsePresent]
  · simp [parsePresent, h, parseInterface, Nat.not_le.mpr hs]

/-- The support of DNSSEC is stored. -/
lemma parsePresent_dnssec (hs : s.dnssec = 0 ∨ s.dnssec = 1) :
    parsePresent (some (decide (s.dnssec ≠ 0))) parseDnssec u =
      .ok { u with dnssec := s.dnssec } := by
  rcases hs with hs | hs <;> simp [parsePresent, parseDnssec, hs]

/-- A CA is stored if there is one. -/
lemma parsePresent_ca (hnone : u.certificationAuthority = none) :
    parsePresent s.certificationAuthority parseCa u =
      .ok { u with certificationAuthority := s.certificationAuthority } := by
  cases hca : s.certificationAuthority with
  | none => rw [parsePresent, ← hnone]
  | some ca => rfl

/-- A name is stored if there is one. -/
lemma parsePresent_name (hnone : u.name = none) :
    parsePresent s.name parseName u = .ok { u with name := s.name } := by
  cases hname : s.name with
  | none => rw [parsePresent, ← hnone]
  | some name => rfl

/-- The conversion of a list of domains. -/
lemma saveDomains_nil (domains : List String) :
    saveDomains p domains [] = orInvalidDomain (domains.mapM (normalDomain p)) := by
  have hidn : domainToIdn p = normalDomain p := rfl
  rw [saveDomains, appendConverted_eq, hidn]
  cases domains.mapM (normalDomain p) <;> rfl

/-- The routing domains are converted; an empty list need not be there. -/
lemma parsePresent_routingDomains (hnil : u.routingDomains = []) :
    parsePresent (if s.routingDomains ≠ [] then some s.routingDomains else none) (parseDomains p)
      u = do
        let domains ← orInvalidDomain (s.routingDomains.mapM (normalDomain p))
        return { u with routingDomains := domains } := by
  by_cases h : s.routingDomains = []
  · rw [h]
    change Except.ok u = Except.ok { u with routingDomains := [] }
    rw [← hnil]
  · rw [if_pos h, parsePresent, parseDomains, hnil, saveDomains_nil]

/-- The search domains are converted; an empty list need not be there. -/
lemma parsePresent_searchDomains (hnil : u.searchDomains = []) :
    parsePresent (if s.searchDomains ≠ [] then some s.searchDomains else none) (parseSearch p)
      u = do
        let domains ← orInvalidDomain (s.searchDomains.mapM (normalDomain p))
        return { u with searchDomains := domains } := by
  by_cases h : s.searchDomains = []
  · rw [h]
    change Except.ok u = Except.ok { u with searchDomains := [] }
    rw [← hnil]
  · rw [if_pos h, parsePresent, parseSearch, hnil, saveDomains_nil]

/-- The networks are stored. -/
lemma parsePresent_networks (hnet : p.inet.Lawful) (hnil : u.networks = [])
    (hs : ∀ network ∈ s.networks, network.IsCidr) :
    parsePresent
      (if s.networks ≠ [] then some (s.networks.map (networkAddressToString p.inet)) else none)
      (parseNetworks p.inet) u = .ok { u with networks := s.networks } := by
  by_cases h : s.networks = []
  · rw [h]
    change Except.ok u = Except.ok { u with networks := [] }
    rw [← hnil]
  · rw [if_pos h, parsePresent, parseNetworks, hnil, appendConverted_eq, mapM_networks hnet hs]
    rfl

/-- The default port is the one of the normal form. -/
lemma setDefaultPort_eq (address : SockAddr) (protocol : DnsProtocol) :
    setDefaultPort address (if protocol ≠ .tls then 53 else 853) =
      if address.port = 0 then address.withPort (if protocol = .tls then 853 else 53)
      else address := by
  have hport : (if protocol ≠ .tls then 53 else 853 : UInt16) =
      if protocol = .tls then 853 else 53 := by
    by_cases h : protocol = .tls <;> simp [h]
  rw [hport]
  cases address with
  | unspec => simp [setDefaultPort, SockAddr.withPort]
  | inet a port =>
    by_cases h : port = 0 <;> simp [setDefaultPort, SockAddr.port, SockAddr.withPort, h]
  | inet6 a port =>
    by_cases h : port = 0 <;> simp [setDefaultPort, SockAddr.port, SockAddr.withPort, h]

end Fields

/-- The fields of a dictionary that carries a server, one row of `key_type_parser` after the other,
from the address on. -/
lemma foldlM_keyTypeParser_of_carries {p : Platform} (hnet : p.inet.Lawful) {dict : VariantDict}
    {s : ServerUri} (hs : IsParsed s) (hc : Carries p.inet dict s) :
    (keyTypeParser p).foldlM (fun server field => field.run dict server)
      ⟨s.address.withPort 0, 0, "", 1, .udp, none, none, [], [], []⟩ = do
        let routing ← orInvalidDomain (s.routingDomains.mapM (normalDomain p))
        let search ← orInvalidDomain (s.searchDomains.mapM (normalDomain p))
        return { s with routingDomains := routing, searchDomains := search } := by
  obtain ⟨address, priority, interface, dnssec, protocol, ca, name, routing, search, networks⟩ := s
  have hport := @parsePresent_port ⟨address, priority, interface, dnssec, protocol, ca, name,
    routing, search, networks⟩ ⟨address.withPort 0, 0, "", 1, .udp, none, none, [], [], []⟩ rfl
  have hpriority := @parsePresent_priority ⟨address, 0, "", 1, .udp, none, none, [], [], []⟩
    priority
  have hprotocol := @parsePresent_protocol _ ⟨address, priority, "", 1, .udp, none, none, [], [], []⟩
    hs.protocol
  have hinterface := @parsePresent_interface _
    ⟨address, priority, "", 1, protocol, none, none, [], [], []⟩ rfl hs.interface
  have hdnssec := @parsePresent_dnssec _
    ⟨address, priority, interface, 1, protocol, none, none, [], [], []⟩ hs.dnssec
  have hca := @parsePresent_ca ⟨address, priority, interface, dnssec, protocol, ca, name,
    routing, search, networks⟩ ⟨address, priority, interface, dnssec, protocol, none, none, [], [], []⟩
    rfl
  have hname := @parsePresent_name ⟨address, priority, interface, dnssec, protocol, ca, name,
    routing, search, networks⟩ ⟨address, priority, interface, dnssec, protocol, ca, none, [], [], []⟩
    rfl
  have hrouting := @parsePresent_routingDomains p ⟨address, priority, interface, dnssec, protocol,
    ca, name, routing, search, networks⟩
    ⟨address, priority, interface, dnssec, protocol, ca, name, [], [], []⟩ rfl
  have hsearch := fun routing' => @parsePresent_searchDomains p ⟨address, priority, interface,
    dnssec, protocol, ca, name, routing, search, networks⟩
    ⟨address, priority, interface, dnssec, protocol, ca, name, routing', [], []⟩ rfl
  have hnetworks := fun routing' search' => @parsePresent_networks p _
    ⟨address, priority, interface, dnssec, protocol, ca, name, routing', search', []⟩ hnet rfl
    hs.networks
  dsimp only at hport hpriority hprotocol hinterface hdnssec hca hname hrouting hsearch hnetworks
  unfold keyTypeParser
  simp only [List.foldlM_cons, List.foldlM_nil, FieldParser.run, hc.port, hc.priority, hc.protocol,
    hc.interface, hc.dnssec, hc.ca, hc.name, hc.routingDomains, hc.searchDomains, hc.networks,
    hport, hpriority, hprotocol, hinterface, hdnssec, hca, hname, hrouting, ok_bind, bind_assoc,
    pure_bind, hsearch, hnetworks]

/-- A dictionary that carries one of the client's servers is decoded as the normal form of the
server, or rejected for a domain without one. -/
theorem parseServerDict_of_carries {p : Platform} (hnet : p.inet.Lawful) {dict : VariantDict}
    {s : ServerUri} (hs : IsParsed s) (hc : Carries p.inet dict s) :
    parseServerDict p dict = orInvalidDomain (normalForm p s) := by
  obtain ⟨text, htext, hparse⟩ := parseIpStr_ipToStr hnet hs.address
  have haddress : parseAddress p.inet dict ServerUri.initial =
      .ok ⟨s.address.withPort 0, 0, "", 1, .udp, none, none, [], [], []⟩ := by
    unfold parseAddress
    rw [hc.address, htext, Option.getD_some]
    simp only [hparse]
    rfl
  unfold parseServerDict
  rw [haddress, ok_bind, foldlM_keyTypeParser_of_carries hnet hs hc]
  unfold normalForm
  cases hrouting : s.routingDomains.mapM (normalDomain p) with
  | none => rfl
  | some routing =>
    cases hsearch : s.searchDomains.mapM (normalDomain p) with
    | none => rfl
    | some search =>
      have hempty : routing = [] ↔ s.routingDomains = [] := by
        cases hdomains : s.routingDomains with
        | nil =>
          rw [hdomains] at hrouting
          simpa using hrouting.symm
        | cons domain domains =>
          rw [hdomains, List.mapM_cons] at hrouting
          obtain ⟨first, -, hrest⟩ := Option.bind_eq_some_iff.mp hrouting
          obtain ⟨rest, -, hcons⟩ := Option.bind_eq_some_iff.mp hrest
          obtain rfl : first :: rest = routing := Option.some.inj hcons
          simp
      change Except.ok (setDefaults { s with routingDomains := routing, searchDomains := search }) =
        Except.ok _
      rw [setDefaults, setDefaultPort_eq]
      simp only [hempty]

/-! ## The whole call -/

/-- A server that one of the client's parsers makes of some text. -/
def ClientMade (lib : TextLibraries) (net : Inet) (s : ServerUri) : Prop :=
  (∃ text, s ∈ serverUriListFromJson lib net text) ∨
    ∃ text, serverUriInitFromString lib net text = some s

lemma ClientMade.isParsed {lib : TextLibraries} {net : Inet} {s : ServerUri}
    (h : ClientMade lib net s) : IsParsed s := by
  rcases h with ⟨text, h⟩ | ⟨text, h⟩
  · exact isParsed_of_mem_json h
  · exact isParsed_of_uri h

/-- Decoding the client's message gives the normal forms of the client's servers. -/
lemma mapM_buildServersVariant {p : Platform} (hnet : p.inet.Lawful) {servers : List ServerUri}
    (h : ∀ s ∈ servers, IsParsed s) :
    (buildServersVariant p.inet servers).mapM (parseServerDict p) =
      orInvalidDomain (servers.mapM (normalForm p)) := by
  unfold buildServersVariant
  induction servers with
  | nil => rfl
  | cons s servers ih =>
    rw [List.map_cons, List.mapM_cons, List.mapM_cons,
      parseServerDict_of_carries hnet (h s List.mem_cons_self) (carries_serverDict p.inet s),
      ih fun s' hs' => h s' (List.mem_cons_of_mem _ hs')]
    cases normalForm p s with
    | none => rfl
    | some s' => cases servers.mapM (normalForm p) <;> rfl

/-- A server has no normal form exactly if one of its domains has none. -/
lemma normalForm_eq_none_iff {p : Platform} {s : ServerUri} :
    normalForm p s = none ↔
      ∃ domain ∈ s.routingDomains ++ s.searchDomains, normalDomain p domain = none := by
  have hsplit : normalForm p s = none ↔ s.routingDomains.mapM (normalDomain p) = none ∨
      s.searchDomains.mapM (normalDomain p) = none := by
    unfold normalForm
    cases s.routingDomains.mapM (normalDomain p) with
    | none => simp
    | some routing => cases s.searchDomains.mapM (normalDomain p) <;> simp
  rw [hsplit, mapM_eq_none_iff, mapM_eq_none_iff]
  simp only [List.mem_append, or_and_right, exists_or]

/-- What the client sends is what the daemon stores: for every list of servers made by the client's
parsers, what `handle_update_call` decodes from the message of `build_servers_variant`, before the
duplicate filter and the wireless adjustment, are the normal forms of the servers; and the call is
rejected exactly if some routing or search domain has no normal form. -/
theorem update_call_carries_servers {p : Platform} (hnet : p.inet.Lawful) (lib : TextLibraries)
    (servers : List ServerUri) (hservers : ∀ s ∈ servers, ClientMade lib p.inet s)
    (isWireless : String → Bool) (mode : Mode) :
    let message := buildServersVariant p.inet servers
    let reply := decodeUpdateCall p isWireless message (UInt32.ofNat mode.toNat)
    (∀ decoded, message.mapM (parseServerDict p) = .ok decoded ↔
      servers.mapM (normalForm p) = some decoded) ∧
    reply = (message.mapM (parseServerDict p)).map
      (fun decoded => (admitServers isWireless [] decoded, mode)) ∧
    (Fails reply ↔ ∃ s ∈ servers, ∃ domain ∈ s.routingDomains ++ s.searchDomains,
      normalDomain p domain = none) := by
  intro message reply
  have hdecoded : message.mapM (parseServerDict p) =
      orInvalidDomain (servers.mapM (normalForm p)) :=
    mapM_buildServersVariant hnet fun s hs => (hservers s hs).isParsed
  have hmode : Mode.ofUInt32 (UInt32.ofNat mode.toNat) = some mode := by cases mode <;> rfl
  have hreply : reply = (message.mapM (parseServerDict p)).map
      (fun decoded => (admitServers isWireless [] decoded, mode)) := by
    change decodeUpdateCall p isWireless message (UInt32.ofNat mode.toNat) = _
    unfold decodeUpdateCall
    rw [hmode]
    dsimp only
    rw [parseServers_eq]
    cases message.mapM (parseServerDict p) <;> rfl
  refine ⟨fun decoded => ?_, hreply, ?_⟩
  · rw [hdecoded]
    cases servers.mapM (normalForm p) with
    | none => simp [orInvalidDomain]
    | some normal => simp [orInvalidDomain]
  · have hfails : Fails reply ↔ servers.mapM (normalForm p) = none := by
      rw [hreply, hdecoded]
      cases servers.mapM (normalForm p) with
      | none => simp [orInvalidDomain, Except.map]
      | some normal => simp [orInvalidDomain, Except.map]
    rw [hfails, mapM_eq_none_iff]
    simp only [normalForm_eq_none_iff]

/-! ## A platform that satisfies the assumptions -/

/-- A decimal number without leading zeros that fits a byte, as `inet_pton` reads it. -/
def octetOfDigits (digits : List Char) : Option UInt8 :=
  let n := Nat.ofDigitChars 10 digits 0
  if Nat.toDigits 10 n = digits ∧ n < 256 then some (UInt8.ofNat n) else none

lemma octetOfDigits_toDigits (b : UInt8) : octetOfDigits (Nat.toDigits 10 b.toNat) = some b := by
  have hlt := b.toNat_lt
  simp only [octetOfDigits, Nat.ofDigitChars_ten_toDigits, true_and, UInt8.ofNat_toNat]
  exact if_pos (by omega)

/-- The character that stands for a byte of an IPv6 address. -/
def byteChar (b : UInt8) : Char :=
  Char.ofNat (256 + b.toNat)

/-- The byte that a character stands for. -/
def charByte (c : Char) : UInt8 :=
  UInt8.ofNat (c.toNat - 256)

lemma toNat_byteChar (b : UInt8) : (byteChar b).toNat = 256 + b.toNat := by
  have hlt := b.toNat_lt
  have hvalid : (256 + b.toNat).isValidChar := Or.inl (by omega)
  rw [byteChar, Char.ofNat, dif_pos hvalid]
  exact UInt32.toNat_ofNatLT

lemma charByte_byteChar (b : UInt8) : charByte (byteChar b) = b := by
  rw [charByte, toNat_byteChar, Nat.add_sub_cancel_left, UInt8.ofNat_toNat]

/-- The text of an IPv4 address. -/
def dottedText (bytes : List UInt8) : List Char :=
  ['.'].intercalate (bytes.map fun b => Nat.toDigits 10 b.toNat)

/-- IPv4 addresses in their usual form.  For IPv6 addresses, which are not used where this is, one
character stands for each byte. -/
def Inet.dotted : Inet where
  pton4 text :=
    match (text.toList.splitOn '.').mapM octetOfDigits with
    | some [a, b, c, d] => some #v[a, b, c, d]
    | _ => none
  pton6 text :=
    if h : text.toList.length = 16 then
      some ⟨(text.toList.map charByte).toArray, by simpa using h⟩
    else none
  ntop4 a := String.ofList (dottedText a.toList)
  ntop6 a := String.ofList (a.toList.map byteChar)

/-- A dotted address has digits and dots only, at most four characters for each byte. -/
lemma dottedText_spec (bytes : List UInt8) :
    (∀ c ∈ dottedText bytes, c = '.' ∨ c.isDigit = true) ∧
      (dottedText bytes).length ≤ 4 * bytes.length := by
  have hdigits : ∀ b : UInt8, (∀ c ∈ Nat.toDigits 10 b.toNat, c = '.' ∨ c.isDigit = true) ∧
      (Nat.toDigits 10 b.toNat).length ≤ 3 := by
    intro b
    have hlt := b.toNat_lt
    refine ⟨fun c hc => Or.inr (Nat.isDigit_of_mem_toDigits (by decide) (by decide) hc), ?_⟩
    exact Nat.toDigits_length 10 b.toNat 3 (by decide) (by omega)
  induction bytes with
  | nil => simp [dottedText]
  | cons b bytes ih =>
    obtain ⟨hmem, hlength⟩ := hdigits b
    cases bytes with
    | nil =>
      have hone : dottedText [b] = Nat.toDigits 10 b.toNat := by simp [dottedText]
      rw [hone]
      exact ⟨hmem, by simpa using Nat.le_succ_of_le hlength⟩
    | cons b' bytes =>
      have hcons : dottedText (b :: b' :: bytes) =
          Nat.toDigits 10 b.toNat ++ '.' :: dottedText (b' :: bytes) := by
        simp [dottedText, List.intercalate_cons_cons]
      rw [hcons]
      constructor
      · intro c hc
        rcases List.mem_append.mp hc with hc | hc
        · exact hmem c hc
        rcases List.mem_cons.mp hc with rfl | hc
        · exact Or.inl rfl
        · exact ih.1 c hc
      · have hrest := ih.2
        simp only [List.length_append, List.length_cons] at hrest ⊢
        omega

/-- A text whose characters have at most `k` bytes. -/
lemma utf8ByteSize_ofList_le {k : ℕ} {chars : List Char} (h : ∀ c ∈ chars, c.utf8Size ≤ k) :
    (String.ofList chars).utf8ByteSize ≤ k * chars.length := by
  induction chars with
  | nil => simp
  | cons c chars ih =>
    have hrest := ih fun c' hc' => h c' (List.mem_cons_of_mem _ hc')
    have hc := h c List.mem_cons_self
    rw [String.ofList_cons, String.utf8ByteSize_append, String.utf8ByteSize_singleton,
      List.length_cons, Nat.mul_add]
    omega

/-- Characters below U+0800 have at most two bytes. -/
lemma utf8Size_le_two {c : Char} (h : c.toNat ≤ 0x7FF) : c.utf8Size ≤ 2 := by
  have hval : c.val ≤ 0x7FF := UInt32.le_iff_toNat_le.mpr h
  unfold Char.utf8Size
  dsimp only
  split
  · omega
  · exact le_of_eq (if_pos hval)

/-- The four bytes of an IPv4 address. -/
lemma vector_four (a : Vector UInt8 4) : ∃ w x y z, a = #v[w, x, y, z] := by
  obtain ⟨⟨bytes⟩, hsize⟩ := a
  match bytes, hsize with
  | [w, x, y, z], _ => exact ⟨w, x, y, z, rfl⟩

/-- Reading back a dotted address, or a text without dots. -/
lemma splitOn_dot {parts : List (List Char)} (hne : parts ≠ [])
    (h : ∀ part ∈ parts, '.' ∉ part) :
    (['.'].intercalate parts).splitOn '.' = parts :=
  List.splitOn_intercalate '.' h hne

lemma lawful_dotted : Inet.dotted.Lawful := by
  have hdot : ∀ b : UInt8, '.' ∉ Nat.toDigits 10 b.toNat := by
    intro b hb
    have hdigit := Nat.isDigit_of_mem_toDigits (by decide) (by decide) hb
    exact absurd hdigit (by decide)
  have hchar : ∀ (b : UInt8) (c : Char), byteChar b = c → 256 ≤ c.toNat := by
    rintro b c rfl
    rw [toNat_byteChar]
    omega
  refine ⟨fun a => ?_, fun a => ?_, fun a => ?_, ?_, ?_⟩
  · obtain ⟨w, x, y, z, rfl⟩ := vector_four a
    have hsplit : (dottedText [w, x, y, z]).splitOn '.' =
        [w, x, y, z].map fun b => Nat.toDigits 10 b.toNat :=
      splitOn_dot (by simp) (by simp [hdot])
    have htext : (Inet.dotted.ntop4 #v[w, x, y, z]).toList = dottedText [w, x, y, z] := by
      simp [Inet.dotted]
    simp only [Inet.dotted] at htext ⊢
    rw [htext, hsplit]
    simp [octetOfDigits_toDigits]
  · have hid : charByte ∘ byteChar = id := funext charByte_byteChar
    simp [Inet.dotted, hid, Vector.toList]
  · have hnodot : '.' ∉ a.toList.map byteChar := by
      intro hmem
      obtain ⟨b, -, hb⟩ := List.mem_map.mp hmem
      exact absurd (hchar b '.' hb) (by decide)
    have hsplit : (a.toList.map byteChar).splitOn '.' = [a.toList.map byteChar] := by
      have hone := @splitOn_dot [a.toList.map byteChar] (by simp) (by simpa using hnodot)
      simpa using hone
    simp only [Inet.dotted, String.toList_ofList, hsplit, List.mapM_cons, List.mapM_nil]
    cases octetOfDigits (a.toList.map byteChar) with
    | none => rfl
    | some b => rfl
  · rintro (_ | ⟨a, port⟩ | ⟨a, port⟩) text htext
    · cases htext
    · obtain rfl := Option.some.inj htext
      simp only [Inet.dotted, String.toList_ofList]
      intro hmem
      rcases (dottedText_spec a.toList).1 '/' hmem with h | h <;> exact absurd h (by decide)
    · obtain rfl := Option.some.inj htext
      simp only [Inet.dotted, String.toList_ofList]
      intro hmem
      obtain ⟨b, -, hb⟩ := List.mem_map.mp hmem
      exact absurd (hchar b '/' hb) (by decide)
  · rintro (_ | ⟨a, port⟩ | ⟨a, port⟩) text htext
    · cases htext
    · obtain rfl := Option.some.inj htext
      obtain ⟨hmem, hlength⟩ := dottedText_spec a.toList
      have hsize := utf8ByteSize_ofList_le (k := 2) fun c hc => utf8Size_le_two (by
        rcases hmem c hc with rfl | hdigit
        · decide
        · simp only [Char.isDigit, Bool.and_eq_true, decide_eq_true_eq] at hdigit
          have hle := UInt32.le_iff_toNat_le.mp hdigit.2
          exact hle.trans (by decide))
      rw [Vector.length_toList] at hlength
      exact Nat.lt_of_le_of_lt (hsize.trans (Nat.mul_le_mul_left 2 hlength)) (by decide)
    · obtain rfl := Option.some.inj htext
      have hsize := @utf8ByteSize_ofList_le 2 (a.toList.map byteChar) fun c hc => by
        obtain ⟨b, -, rfl⟩ := List.mem_map.mp hc
        have hlt := b.toNat_lt
        exact utf8Size_le_two (by rw [toNat_byteChar]; omega)
      rw [List.length_map, Vector.length_toList] at hsize
      exact Nat.lt_of_le_of_lt hsize (by decide)

/-- The URI of a server that uses TLS, for the root domain and without DNSSEC. -/
def plainUri : String :=
  "dns+tls://192.0.2.1?domain=&dnssec=0"

/-- What uriparser makes of that URI and its query. -/
def TextLibraries.plain : TextLibraries where
  jsonLoads _ := none
  uriParseSingleUri text :=
    if text = plainUri then some ⟨"dns+tls", "192.0.2.1", "", "domain=&dnssec=0"⟩ else none
  uriDissectQuery query :=
    if query = "domain=&dnssec=0" then some [("domain", some ""), ("dnssec", some "0")] else none

/-- The server that the client makes of that URI. -/
def uriServer : ServerUri :=
  { ServerUri.initial with
    address := .inet documentationAddress 0, protocol := .tls, dnssec := 0, routingDomains := [""] }

/-- A client that sends one server read from a URI. -/
theorem update_call_carries_uri :
    let p := { Platform.plain with inet := Inet.dotted }
    let message := buildServersVariant p.inet [uriServer]
    p.inet.Lawful ∧ serverUriInitFromString .plain p.inet plainUri = some uriServer ∧
    (∀ decoded, message.mapM (parseServerDict p) = .ok decoded ↔
      [uriServer].mapM (normalForm p) = some decoded) ∧
    (Fails (decodeUpdateCall p (fun _ => false) message 0) ↔
      ∃ s ∈ [uriServer], ∃ domain ∈ s.routingDomains ++ s.searchDomains,
        normalDomain p domain = none) := by
  intro p message
  have hmade : serverUriInitFromString .plain p.inet plainUri = some uriServer := by decide
  have hcall := @update_call_carries_servers p lawful_dotted .plain [uriServer]
    (fun s hs => by rw [List.mem_singleton.mp hs]; exact Or.inr ⟨plainUri, hmade⟩)
    (fun _ => false) .backup
  exact ⟨lawful_dotted, hmade, hcall.1, hcall.2.2⟩

end Dnsconfd
