import Dnsconfd.Client.ServerUri
import Dnsconfd.ConfigurationParsing.ConfigFile

/-!
# Numbers and protocol names in texts

Four parsers take a number from a text: the length of a prefix in a network, the port and the
priority of a static server, and the priority in a URI.  All of them look at where `strtol` stops and
at the range of the value, and none of them looks at whether there was a number at all.  So they
accept what they should and one text more, the empty one (`numbers_denoted_iff`).

Names of protocols are read by two functions.  The one for the configuration file compares whole
texts, the other one compares six of the seven letters; they differ exactly on the texts of
`isNearProtocol` (`protocol_names_iff`).

The fields of a server, in D-Bus dictionaries and in JSON, have both kinds of texts in them;
`FieldTexts.documented` is what is meant to be in these fields and `FieldTexts.lenient` what is read
(`lenient_eq_parsed`).
-/

namespace Dnsconfd

open Library

/-! ## Numbers -/

/-- The text denotes the value, which is within the given bounds. -/
structure Denotes (low high : ℤ) (text : String) (value : ℤ) : Prop where
  decimal : IsDecimal text.toList value
  low_le : low ≤ value
  le_high : value ≤ high

/-- A text that `strtol` reads to its end as a value within bounds is empty or denotes the value;
the bounds are within those of the type. -/
lemma eq_empty_or_denotes {low high : ℤ} {text : String} (hend : (strtol text.toList).2 = [])
    (hlow : low ≤ (strtol text.toList).1) (hhigh : (strtol text.toList).1 ≤ high)
    (htypeLow : -2 ^ 63 < low) (htypeHigh : high < 2 ^ 63 - 1) :
    text = "" ∨ Denotes low high text (strtol text.toList).1 := by
  rcases isDecimal_of_strtol hend with hempty | ⟨value, hvalue⟩
  · exact Or.inl (String.toList_injective hempty)
  · rw [strtol_of_isDecimal hvalue] at hlow hhigh ⊢
    -- a value that was clamped would be out of bounds
    have hclamp : clampLong value = value := by
      dsimp only at hlow hhigh
      unfold clampLong at hlow hhigh ⊢
      omega
    dsimp only at hlow hhigh ⊢
    rw [hclamp] at hlow hhigh ⊢
    exact Or.inr ⟨hvalue, hlow, hhigh⟩

/-- The empty text denotes no number. -/
lemma not_denotes_empty {low high value : ℤ} : ¬ Denotes low high "" value := by
  rintro ⟨hdecimal, -, -⟩
  generalize hnil : ("" : String).toList = text at hdecimal
  cases hdecimal with
  | unsigned hspaces hdigits hne => exact hne (List.append_eq_nil_iff.mp hnil.symm).2
  | plus hspaces hdigits hne => simp at hnil
  | minus hspaces hdigits hne => simp at hnil

/-- A number that is stored in an `int` keeps its value. -/
lemma toInt_ofInt_priority {value : ℤ} (hlow : -2147483648 ≤ value) (hhigh : value ≤ 2147483647) :
    (Int32.ofInt value).toInt = value :=
  Int32.toInt_ofInt_of_le hlow (Int.lt_add_one_iff.mpr hhigh)

/-- `parse_priority_str` accepts what `strtol` reads to its end as a value that fits an `int`. -/
lemma parsePriorityStr_eq_some_iff {text : String} {priority : Int32} :
    ConfigFile.parsePriorityStr text = some priority ↔ (strtol text.toList).2 = [] ∧
      -2147483648 ≤ (strtol text.toList).1 ∧ (strtol text.toList).1 ≤ 2147483647 ∧
      priority.toInt = (strtol text.toList).1 := by
  unfold ConfigFile.parsePriorityStr
  dsimp only
  split
  · rename_i hrange
    refine ⟨fun h => absurd h (by simp), ?_⟩
    rintro ⟨hend, hlow, hhigh, -⟩
    rcases hrange with h | h | h
    · omega
    · omega
    · exact absurd hend h
  · rename_i hrange
    simp only [not_or, not_lt, not_not] at hrange
    obtain ⟨hlow, hhigh, hend⟩ := hrange
    rw [Option.some.injEq, ← Int32.toInt_inj, toInt_ofInt_priority hlow hhigh]
    exact ⟨fun h => ⟨hend, hlow, hhigh, h.symm⟩, fun h => h.2.2.2.symm⟩

/-- `parse_port_str` accepts what `strtol` reads to its end as a value that fits a port. -/
lemma parsePortStr_eq_some_iff {text : String} {port : UInt16} :
    ConfigFile.parsePortStr text = some port ↔ (strtol text.toList).2 = [] ∧
      0 ≤ (strtol text.toList).1 ∧ (strtol text.toList).1 ≤ 65535 ∧
      (port.toNat : ℤ) = (strtol text.toList).1 := by
  unfold ConfigFile.parsePortStr
  dsimp only
  split
  · rename_i hrange
    refine ⟨fun h => absurd h (by simp), ?_⟩
    rintro ⟨hend, hlow, hhigh, -⟩
    rcases hrange with h | h | h
    · omega
    · omega
    · exact absurd hend h
  · rename_i hrange
    simp only [not_or, not_lt, not_not] at hrange
    obtain ⟨hlow, hhigh, hend⟩ := hrange
    have hvalue : (UInt16.ofNat (strtol text.toList).1.toNat).toNat =
        (strtol text.toList).1.toNat := by
      rw [UInt16.toNat_ofNat']
      omega
    rw [Option.some.injEq, ← UInt16.toNat_inj, hvalue]
    constructor
    · intro h
      refine ⟨hend, hlow, hhigh, ?_⟩
      omega
    · rintro ⟨-, -, -, h⟩
      omega

/-- The priority in a query is accepted if the one of a static server is. -/
lemma parseQueryItem_priority {net : Inet} {uri : ServerUri} {text : String} :
    parseQueryItem net uri ("priority", some text) =
      (ConfigFile.parsePriorityStr text).map fun priority => { uri with priority := priority } := by
  simp only [parseQueryItem, ConfigFile.parsePriorityStr, storePriority, if_true]
  by_cases hend : (strtol text.toList).2 = []
  · by_cases hrange : (strtol text.toList).1 < -2147483648 ∨ 2147483647 < (strtol text.toList).1
    · simp [hend, hrange]
    · simp [hend, hrange]
  · simp [hend]

/-- What the parsers accept denotes what they store: the priority and the port of a static server,
the priority in a URI, and the length of the prefix of a network. -/
structure NumbersDenoted (net : Inet) (text : String) : Prop where
  priority : ∀ priority, ConfigFile.parsePriorityStr text = some priority →
    Denotes (-2147483648) 2147483647 text priority.toInt
  port : ∀ port, ConfigFile.parsePortStr text = some port → Denotes 0 65535 text port.toNat
  queryPriority : ∀ uri uri', parseQueryItem net uri ("priority", some text) = some uri' →
    Denotes (-2147483648) 2147483647 text uri'.priority.toInt
  network : ∀ network, networkAddressFromString net text = some network →
    ∃ address length, text = address ++ "/" ++ length ∧ '/' ∉ address.toList ∧
      Denotes 0 network.address.maxPrefixLength length network.prefixLength.toNat

/-- A network whose address would be accepted and that has no length of a prefix. -/
def LacksLength (net : Inet) (text : String) : Prop :=
  ∃ address, text = address ++ "/" ∧ '/' ∉ address.toList ∧
    address.utf8ByteSize < inet6AddrStrLen ∧ parseIpStr net address 0 ≠ none

/-- The empty text is a priority and a port for the configuration file. -/
lemma numbers_of_empty : ConfigFile.parsePriorityStr "" = some 0 ∧
    ConfigFile.parsePortStr "" = some 0 := by
  decide

/-- A text is taken apart at its first slash in one way only. -/
lemma append_slash_inj {address address' length length' : String}
    (hslash : '/' ∉ address.toList) (hslash' : '/' ∉ address'.toList)
    (h : address ++ "/" ++ length = address' ++ "/" ++ length') :
    address = address' ∧ length = length' := by
  obtain ⟨htake, hdrop⟩ := @split_append_slash address length hslash
  obtain ⟨htake', hdrop'⟩ := @split_append_slash address' length' hslash'
  rw [h] at htake hdrop
  have hafter := (List.cons.inj (hdrop.symm.trans hdrop')).2
  exact ⟨String.toList_injective (htake.symm.trans htake'), String.toList_injective hafter⟩

/-- A network has a prefix whose length its text denotes, unless the text lacks the length. -/
lemma network_denoted_iff {net : Inet} {text : String} :
    (∀ network, networkAddressFromString net text = some network →
      ∃ address length, text = address ++ "/" ++ length ∧ '/' ∉ address.toList ∧
        Denotes 0 network.address.maxPrefixLength length network.prefixLength.toNat) ↔
      ¬ LacksLength net text := by
  constructor
  · rintro h ⟨address, rfl, hslash, hfits, hparse⟩
    obtain ⟨family, hfamily⟩ := Option.ne_none_iff_exists'.mp hparse
    have hzero : networkAddressFromString net (address ++ "/") = some ⟨family, 0⟩ := by
      rw [networkAddressFromString_eq_some_iff]
      refine ⟨address, "", by simp, hslash, hfits, rfl, le_refl 0, ?_, hfamily, rfl⟩
      exact Int.natCast_nonneg _
    obtain ⟨address', length, htext, hslash', hdenotes⟩ := h _ hzero
    have hsame : address ++ "/" ++ "" = address' ++ "/" ++ length := by
      rw [String.append_empty]
      exact htext
    obtain ⟨-, rfl⟩ := append_slash_inj hslash hslash' hsame
    exact not_denotes_empty hdenotes
  · intro hlength network hnetwork
    obtain ⟨address, length, rfl, hslash, hfits, hend, hmin, hmax, hparse, hvalue⟩ :=
      networkAddressFromString_eq_some_iff.mp hnetwork
    refine ⟨address, length, rfl, hslash, ?_⟩
    have hle : (network.address.maxPrefixLength : ℤ) ≤ 128 := by
      cases network.address <;> simp [SockAddr.maxPrefixLength]
    rcases eq_empty_or_denotes hend hmin hmax (by decide) (by omega) with rfl | hdenotes
    · refine absurd ⟨address, by simp, hslash, hfits, ?_⟩ hlength
      simp [hparse]
    · have hstored : (network.prefixLength.toNat : ℤ) = (strtol length.toList).1 := by
        rw [hvalue, UInt8.toNat_ofNat']
        omega
      rw [hstored]
      exact hdenotes

/-- Numeric fields and their texts.  What each of the four parsers accepts is a number within the
range of its field, and the number is what it stores, exactly if the text is neither empty nor a
network without the length of its prefix. -/
theorem numbers_denoted_iff (net : Inet) (text : String) :
    NumbersDenoted net text ↔ text ≠ "" ∧ ¬ LacksLength net text := by
  constructor
  · intro h
    refine ⟨?_, network_denoted_iff.mp h.network⟩
    rintro rfl
    exact not_denotes_empty (h.priority 0 numbers_of_empty.1)
  · rintro ⟨hne, hlength⟩
    have hpriority : ∀ priority, ConfigFile.parsePriorityStr text = some priority →
        Denotes (-2147483648) 2147483647 text priority.toInt := by
      intro priority h
      obtain ⟨hend, hlow, hhigh, hvalue⟩ := parsePriorityStr_eq_some_iff.mp h
      rw [hvalue]
      exact (eq_empty_or_denotes hend hlow hhigh (by decide) (by decide)).resolve_left hne
    refine ⟨hpriority, fun port h => ?_, fun uri uri' h => ?_, network_denoted_iff.mpr hlength⟩
    · obtain ⟨hend, hlow, hhigh, hvalue⟩ := parsePortStr_eq_some_iff.mp h
      rw [hvalue]
      exact (eq_empty_or_denotes hend hlow hhigh (by decide) (by decide)).resolve_left hne
    · rw [parseQueryItem_priority] at h
      obtain ⟨priority, hparse, rfl⟩ := Option.map_eq_some_iff.mp h
      exact hpriority priority hparse

/-- A network without the length of its prefix is taken for the network of all addresses. -/
theorem network_without_length :
    networkAddressFromString .documentation "192.0.2.1/" =
        some ⟨.inet documentationAddress 0, 0⟩ ∧
      ¬ NumbersDenoted .documentation "192.0.2.1/" := by
  refine ⟨rfl, fun h => network_denoted_iff.mp h.network ?_⟩
  exact ⟨"192.0.2.1", rfl, by decide, by decide, by decide⟩

/-! ## Names of protocols -/

/-- The protocols that have a name. -/
def namedProtocols : List DnsProtocol :=
  [.udp, .tcp, .tls]

/-- A text of seven bytes that differs from the name of a protocol in the last letter only. -/
def isNearProtocol (text : String) : Bool :=
  text.utf8ByteSize = 7 && namedProtocols.any fun protocol =>
    text.toList.take 6 = protocol.toText.toList.take 6 && text ≠ protocol.toText

/-- Both functions that read names of protocols read exactly those, with one result. -/
def ProtocolNamesExact (text : String) : Prop :=
  protocolFromNstring text = ConfigFile.parseProtocolString text ∧
    ∀ protocol ≠ .protocolsEnd,
      (protocolFromNstring text = protocol ↔ text = protocol.toText) ∧
        (ConfigFile.parseProtocolString text = protocol ↔ text = protocol.toText)

/-- The function for the configuration file reads exactly the names. -/
lemma parseProtocolString_eq_iff {text : String} {protocol : DnsProtocol}
    (h : protocol ≠ .protocolsEnd) :
    ConfigFile.parseProtocolString text = protocol ↔ text = protocol.toText := by
  unfold ConfigFile.parseProtocolString
  cases protocol with
  | protocolsEnd => exact absurd rfl h
  | udp | tcp | tls =>
    simp only [DnsProtocol.toText]
    split_ifs <;> simp_all

/-- The other function reads a name by its length and its first six letters. -/
lemma protocolFromNstring_eq_iff {text : String} {protocol : DnsProtocol}
    (h : protocol ≠ .protocolsEnd) :
    protocolFromNstring text = protocol ↔
      text.utf8ByteSize = 7 ∧ text.toList.take 6 = protocol.toText.toList.take 6 := by
  unfold protocolFromNstring
  cases protocol with
  | protocolsEnd => exact absurd rfl h
  | udp | tcp | tls =>
    simp only [DnsProtocol.toText]
    split_ifs <;> simp_all

/-- A name is no near miss. -/
lemma isNearProtocol_toText (protocol : DnsProtocol) : isNearProtocol protocol.toText = false := by
  cases protocol <;> decide

/-- Apart from near misses the other function reads exactly the names, too. -/
lemma protocolFromNstring_exact {text : String} (hnear : isNearProtocol text = false)
    {protocol : DnsProtocol} (hne : protocol ≠ .protocolsEnd) :
    protocolFromNstring text = protocol ↔ text = protocol.toText := by
  have hmem : protocol ∈ namedProtocols := by
    cases protocol with
    | udp | tcp | tls => decide
    | protocolsEnd => exact absurd rfl hne
  rw [protocolFromNstring_eq_iff hne]
  refine ⟨fun ⟨hsize, hletters⟩ => ?_, ?_⟩
  · by_contra hother
    have hnear' : isNearProtocol text = true := by
      simp only [isNearProtocol, Bool.and_eq_true, decide_eq_true_eq, List.any_eq_true]
      exact ⟨hsize, protocol, hmem, hletters, hother⟩
    rw [hnear] at hnear'
    cases hnear'
  · rintro rfl
    cases protocol with
    | udp | tcp | tls => decide
    | protocolsEnd => exact absurd rfl hne

/-- Names of protocols are read exactly, and alike by both functions, unless seven letters differ
from a name in the last one only. -/
theorem protocol_names_iff (text : String) :
    ProtocolNamesExact text ↔ isNearProtocol text = false := by
  constructor
  · rintro ⟨-, hnames⟩
    refine Bool.eq_false_iff.mpr fun hnear => ?_
    simp only [isNearProtocol, Bool.and_eq_true, decide_eq_true_eq, List.any_eq_true] at hnear
    obtain ⟨hsize, protocol, hprotocol, hletters, hother⟩ := hnear
    have hne : protocol ≠ .protocolsEnd := by
      rintro rfl
      exact absurd hprotocol (by decide)
    have hread : protocolFromNstring text = protocol :=
      (protocolFromNstring_eq_iff hne).mpr ⟨hsize, hletters⟩
    exact hother ((hnames protocol hne).1.mp hread)
  · intro hnear
    have hexact : ∀ protocol ≠ DnsProtocol.protocolsEnd,
        (protocolFromNstring text = protocol ↔ text = protocol.toText) :=
      fun protocol hne => protocolFromNstring_exact hnear hne
    refine ⟨?_, fun protocol hne => ⟨hexact protocol hne, parseProtocolString_eq_iff hne⟩⟩
    -- both are the protocol that one of them is, if there is one
    by_cases hend : protocolFromNstring text = .protocolsEnd
    · by_contra hdiffer
      rw [hend] at hdiffer
      have hname := (parseProtocolString_eq_iff (Ne.symm hdiffer)).mp rfl
      exact Ne.symm hdiffer (((hexact _ (Ne.symm hdiffer)).mpr hname).symm.trans hend)
    · have hname := (hexact _ hend).mp rfl
      exact ((parseProtocolString_eq_iff hend).mpr hname).symm

/-- A letter off at the end is the name of a protocol for D-Bus, JSON and URIs. -/
theorem protocol_name_misspelled :
    protocolFromNstring "dns+tlx" = .tls ∧
      ConfigFile.parseProtocolString "dns+tlx" = .protocolsEnd ∧
      ¬ ProtocolNamesExact "dns+tlx" := by
  refine ⟨by decide, by decide, fun h => ?_⟩
  exact absurd h.1 (by decide)

/-! ## Texts in the fields of a server -/

/-- Texts as they are meant: the name of a protocol, and an address with the length of a prefix. -/
def FieldTexts.documented (net : Inet) : FieldTexts where
  protocol text protocol := protocol ≠ .protocolsEnd ∧ text = protocol.toText
  network text network := ∃ address length, text = address ++ "/" ++ length ∧
    '/' ∉ address.toList ∧ address.utf8ByteSize < inet6AddrStrLen ∧
    parseIpStr net address 0 = some network.address ∧
    Denotes 0 network.address.maxPrefixLength length network.prefixLength.toNat

/-- Texts with the last letter of a protocol left open, and with 0 for a length that is missing. -/
def FieldTexts.lenient (net : Inet) : FieldTexts where
  protocol text protocol := protocol ≠ .protocolsEnd ∧ text.utf8ByteSize = 7 ∧
    text.toList.take 6 = protocol.toText.toList.take 6
  network text network := (FieldTexts.documented net).network text network ∨
    ∃ address, text = address ++ "/" ∧ '/' ∉ address.toList ∧
      address.utf8ByteSize < inet6AddrStrLen ∧ parseIpStr net address 0 = some network.address ∧
      network.prefixLength = 0

section FieldTexts

variable {net : Inet}

/-- A protocol is read as it is meant unless the text is a near miss. -/
lemma documented_protocol_iff {text : String} {protocol : DnsProtocol} :
    (FieldTexts.documented net).protocol text protocol ↔
      isNearProtocol text = false ∧ (FieldTexts.parsed net).protocol text protocol := by
  constructor
  · rintro ⟨hne, rfl⟩
    have hnear := isNearProtocol_toText protocol
    exact ⟨hnear, hne, (protocolFromNstring_exact hnear hne).mpr rfl⟩
  · rintro ⟨hnear, hne, hread⟩
    exact ⟨hne, (protocolFromNstring_exact hnear hne).mp hread⟩

/-- A network is read as it is meant unless the length of the prefix is missing. -/
lemma documented_network_iff {text : String} {network : NetworkAddress} :
    (FieldTexts.documented net).network text network ↔
      ¬ LacksLength net text ∧ (FieldTexts.parsed net).network text network := by
  constructor
  · rintro ⟨address, length, rfl, hslash, hfits, hparse, hdenotes⟩
    have hle : (network.address.maxPrefixLength : ℤ) ≤ 128 := by
      cases network.address <;> simp [SockAddr.maxPrefixLength]
    have hlow := hdenotes.low_le
    have hhigh := hdenotes.le_high
    have hvalue : strtol length.toList = ((network.prefixLength.toNat : ℤ), []) := by
      rw [strtol_of_isDecimal hdenotes.decimal]
      congr 1
      unfold clampLong
      omega
    refine ⟨?_, networkAddressFromString_eq_some_iff.mpr
      ⟨address, length, rfl, hslash, hfits, ?_, ?_, ?_, hparse, ?_⟩⟩
    · rintro ⟨address', htext, hslash', -⟩
      have hsame : address ++ "/" ++ length = address' ++ "/" ++ "" := by
        rw [String.append_empty]
        exact htext
      obtain ⟨-, rfl⟩ := append_slash_inj hslash hslash' hsame
      exact not_denotes_empty hdenotes
    · rw [hvalue]
    · rw [hvalue]
      exact hlow
    · rw [hvalue]
      exact hhigh
    · rw [hvalue, Int.toNat_natCast, UInt8.ofNat_toNat]
  · rintro ⟨hlength, hparsed⟩
    obtain ⟨address, length, rfl, hslash, hdenotes⟩ :=
      network_denoted_iff.mpr hlength network hparsed
    obtain ⟨address', length', hsame, hslash', hfits, -, -, -, hparse, -⟩ :=
      networkAddressFromString_eq_some_iff.mp hparsed
    obtain ⟨rfl, rfl⟩ := append_slash_inj hslash hslash' hsame
    exact ⟨address, length, rfl, hslash, hfits, hparse, hdenotes⟩

/-- The texts that are read are those that are meant and the near misses, with the same protocol or
network. -/
lemma lenient_eq_parsed : FieldTexts.lenient net = .parsed net := by
  ext text value
  · refine and_congr_right fun hne => ?_
    exact (protocolFromNstring_eq_iff hne).symm
  · refine ⟨?_, fun hparsed => ?_⟩
    · rintro (hdocumented | ⟨address, rfl, hslash, hfits, hparse, hzero⟩)
      · exact (documented_network_iff.mp hdocumented).2
      · refine networkAddressFromString_eq_some_iff.mpr
          ⟨address, "", by simp, hslash, hfits, rfl, le_refl 0, ?_, hparse, hzero⟩
        exact Int.natCast_nonneg _
    · by_cases hlength : LacksLength net text
      · obtain ⟨address, rfl, hslash, hfits, -⟩ := hlength
        obtain ⟨address', length, hsame, hslash', -, -, -, -, hparse, hvalue⟩ :=
          networkAddressFromString_eq_some_iff.mp hparsed
        have hsame' : address ++ "/" ++ "" = address' ++ "/" ++ length := by
          rw [String.append_empty]
          exact hsame
        obtain ⟨rfl, rfl⟩ := append_slash_inj hslash hslash' hsame'
        exact Or.inr ⟨address, rfl, hslash, hfits, hparse, hvalue⟩
      · exact Or.inl (documented_network_iff.mpr ⟨hlength, hparsed⟩)

end FieldTexts

end Dnsconfd
