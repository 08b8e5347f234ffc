import Dnsconfd.ServerTable
import Dnsconfd.Library.TransitionSystem

/-!
# Decoding an Update call

The parameters of the D-Bus method Update are a list of dictionaries, one for each server, and a
mode.  This file has the decoding half of `handle_update_call`: the parser of every field, the
loop over the dictionaries with its filter for duplicates, and which dictionaries are rejected
(`fails_parseServerDict`).  Allocations are assumed to succeed.
-/

namespace Dnsconfd

open Library

/-! ## Dictionaries -/

/-- A value of a dictionary, by its D-Bus type; the types that no field has are `other`. -/
inductive Variant where
  | string (value : String)
  | int32 (value : Int32)
  | boolean (value : Bool)
  | byteString (value : List UInt8)
  | stringArray (value : List String)
  | other
deriving DecidableEq

/-- A dictionary of type `a{sv}`. -/
abbrev VariantDict := List (String × Variant)

/-- The value of a key in the `GVariantDict` made from a dictionary, which keeps the last value of
a repeated key. -/
def dictValue : VariantDict → String → Option Variant
  | [], _ => none
  | (k, v) :: dict, key => (dictValue dict key).or (if k = key then some v else none)

/-- `g_variant_dict_lookup_value` for strings. -/
def dictString (dict : VariantDict) (key : String) : Option String :=
  match dictValue dict key with
  | some (.string value) => some value
  | _ => none

/-- `g_variant_dict_lookup_value` for integers. -/
def dictInt32 (dict : VariantDict) (key : String) : Option Int32 :=
  match dictValue dict key with
  | some (.int32 value) => some value
  | _ => none

/-- `g_variant_dict_lookup_value` for booleans. -/
def dictBoolean (dict : VariantDict) (key : String) : Option Bool :=
  match dictValue dict key with
  | some (.boolean value) => some value
  | _ => none

/-- `g_variant_dict_lookup_value` for byte strings. -/
def dictByteString (dict : VariantDict) (key : String) : Option (List UInt8) :=
  match dictValue dict key with
  | some (.byteString value) => some value
  | _ => none

/-- `g_variant_dict_lookup_value` for arrays of strings. -/
def dictStringArray (dict : VariantDict) (key : String) : Option (List String) :=
  match dictValue dict key with
  | some (.stringArray value) => some value
  | _ => none

/-! ## Fields -/

/-- `parse_error_code`. -/
inductive ParseError where
  | missingAddress
  | invalidAddress
  | portInvalid
  | invalidProtocol
  | interfaceTooLong
  | invalidNet
  | invalidDomain
  | invalidMode
deriving DecidableEq

/-- `parse_error_strings`. -/
def ParseError.text : ParseError → String
  | missingAddress => "Server does not have address set"
  | invalidAddress => "Address is not a valid IP address"
  | portInvalid => "Port is not a valid port."
  | invalidProtocol => "Protocol is not supported"
  | interfaceTooLong => "Interface name can have at most 15 characters"
  | invalidNet => "Network address is invalid"
  | invalidDomain => "Domain name is invalid"
  | invalidMode => "Mode is invalid"

/-- What a parser of a field makes of the server at hand. -/
abbrev ParseResult := Except ParseError ServerUri

/-- `parse_address`: a text, or else the bytes of an address. -/
def parseAddress (net : Inet) (dict : VariantDict) (server : ServerUri) : ParseResult :=
  match dictString dict "address" with
  | some text =>
    match parseIpStr net text server.address.port with
    | some address => .ok { server with address := address }
    | none => .error .invalidAddress
  | none =>
    match dictByteString dict "address" with
    | none => .error .missingAddress
    | some bytes =>
      if h : bytes.length = 4 then
        .ok { server with address := .inet ⟨bytes.toArray, by simpa using h⟩ 0 }
      else if h : bytes.length = 16 then
        .ok { server with address := .inet6 ⟨bytes.toArray, by simpa using h⟩ 0 }
      else .error .invalidAddress

/-- `parse_port`. -/
def parsePort (rawPort : Int32) (server : ServerUri) : ParseResult :=
  if rawPort < 0 ∨ 65535 < rawPort then .error .portInvalid
  else .ok { server with address := server.address.withPort (UInt16.ofNat rawPort.toInt.toNat) }

/-- `parse_priority`. -/
def parsePriority (rawPriority : Int32) (server : ServerUri) : ParseResult :=
  .ok { server with priority := rawPriority }

/-- `parse_protocol`. -/
def parseProtocol (protocolStr : String) (server : ServerUri) : ParseResult :=
  if protocolFromNstring protocolStr = .protocolsEnd then .error .invalidProtocol
  else .ok { server with protocol := protocolFromNstring protocolStr }

/-- `parse_interface`. -/
def parseInterface (interfaceStr : String) (server : ServerUri) : ParseResult :=
  if ifNamSiz ≤ interfaceStr.utf8ByteSize then .error .interfaceTooLong
  else .ok { server with interface := interfaceStr }

/-- `parse_dnssec`. -/
def parseDnssec (dnssecVal : Bool) (server : ServerUri) : ParseResult :=
  .ok { server with dnssec := if dnssecVal then 1 else 0 }

/-- `parse_ca`. -/
def parseCa (caStr : String) (server : ServerUri) : ParseResult :=
  .ok { server with certificationAuthority := some caStr }

/-- `parse_name`. -/
def parseName (nameStr : String) (server : ServerUri) : ParseResult :=
  .ok { server with name := some nameStr }

/-- The loop of `save_domains` and `parse_networks`: every text is converted and appended, and the
first one that can not be converted ends the loop with an error. -/
def appendConverted {α : Type} (convert : String → Option α) (error : ParseError) :
    List String → List α → Except ParseError (List α)
  | [], acc => .ok acc
  | text :: texts, acc =>
    match convert text with
    | none => .error error
    | some value => appendConverted convert error texts (acc ++ [value])

/-- The form in which `save_domains` keeps a domain. -/
def domainToIdn (p : Platform) (domainStr : String) : Option String :=
  if domainStr = "" then some "."
  else if "..".toList <:+: domainStr.toList then none
  else p.idn2LookupU8 domainStr

/-- `save_domains`. -/
def saveDomains (p : Platform) (domains saved : List String) : Except ParseError (List String) :=
  appendConverted (domainToIdn p) .invalidDomain domains saved

/-- `parse_domains`. -/
def parseDomains (p : Platform) (domains : List String) (server : ServerUri) : ParseResult := do
  let routingDomains ← saveDomains p domains server.routingDomains
  return { server with routingDomains := routingDomains }

/-- `parse_search`. -/
def parseSearch (p : Platform) (domains : List String) (server : ServerUri) : ParseResult := do
  let searchDomains ← saveDomains p domains server.searchDomains
  return { server with searchDomains := searchDomains }

/-- `parse_networks`. -/
def parseNetworks (net : Inet) (texts : List String) (server : ServerUri) : ParseResult := do
  let networks ← appendConverted (networkAddressFromString net) .invalidNet texts server.networks
  return { server with networks := networks }

/-- A row of `key_type_parser`: the key and the type of a field and the parser of its value. -/
inductive FieldParser where
  | int32 (key : String) (parser : Int32 → ServerUri → ParseResult)
  | string (key : String) (parser : String → ServerUri → ParseResult)
  | boolean (key : String) (parser : Bool → ServerUri → ParseResult)
  | stringArray (key : String) (parser : List String → ServerUri → ParseResult)

/-- Apply the parser of a field that is present. -/
def parsePresent {α : Type} (value : Option α) (parser : α → ServerUri → ParseResult)
    (server : ServerUri) : ParseResult :=
  match value with
  | none => .ok server
  | some v => parser v server

/-- One iteration over `key_type_parser`: a field that is missing or of another type is skipped. -/
def FieldParser.run (dict : VariantDict) (server : ServerUri) : FieldParser → ParseResult
  | int32 key parser => parsePresent (dictInt32 dict key) parser server
  | string key parser => parsePresent (dictString dict key) parser server
  | boolean key parser => parsePresent (dictBoolean dict key) parser server
  | stringArray key parser => parsePresent (dictStringArray dict key) parser server

/-- `key_type_parser`. -/
def keyTypeParser (p : Platform) : List FieldParser :=
  [.int32 "port" parsePort, .int32 "priority" parsePriority, .string "protocol" parseProtocol,
    .string "interface" parseInterface, .boolean "dnssec" parseDnssec, .string "ca" parseCa,
    .string "name" parseName, .stringArray "routing_domains" (parseDomains p),
    .stringArray "search_domains" (parseSearch p),
    .stringArray "networks" (parseNetworks p.inet)]

/-! ## Servers -/

/-- What is filled in once all fields are parsed: the root domain if there is no routing domain,
and the port of the protocol if there is none. -/
def setDefaults (server : ServerUri) : ServerUri :=
  { server with
    routingDomains := if server.routingDomains = [] then ["."] else server.routingDomains
    address := setDefaultPort server.address (if server.protocol ≠ .tls then 53 else 853) }

/-- The part of an iteration of `handle_update_call` that decodes one dictionary. -/
def parseServerDict (p : Platform) (dict : VariantDict) : ParseResult := do
  let server ← parseAddress p.inet dict ServerUri.initial
  let server ← (keyTypeParser p).foldlM (fun server field => field.run dict server) server
  return setDefaults server

/-- The filter for duplicates: the address is already present on another interface. -/
def isDuplicate (parsedServers : List ServerUri) (server : ServerUri) : Bool :=
  parsedServers.any fun existing =>
    areIpsEqual server.address existing.address && server.interface ≠ existing.interface

/-- Lower the priority of a server on a wireless interface; it stays within an `int`. -/
def lowerWireless (isWireless : String → Bool) (server : ServerUri) : ServerUri :=
  if isWireless server.interface then
    { server with priority := Int32.ofInt (max (server.priority.toInt - 10) (-2147483648)) }
  else server

/-- The loop of `handle_update_call` over the dictionaries. -/
def parseServers (p : Platform) (isWireless : String → Bool) :
    List VariantDict → List ServerUri → Except ParseError (List ServerUri)
  | [], parsedServers => .ok parsedServers
  | dict :: dicts, parsedServers => do
    let server ← parseServerDict p dict
    if isDuplicate parsedServers server then parseServers p isWireless dicts parsedServers
    else parseServers p isWireless dicts (parsedServers ++ [lowerWireless isWireless server])

/-! ## Which dictionaries are rejected -/

/-- A dictionary that does not describe a server, with the names of protocols and the networks in it
read in a given way. -/
inductive InvalidDict (texts : FieldTexts) (p : Platform) (dict : VariantDict) : Prop where
  | missingAddress (hs : dictString dict "address" = none)
      (hb : dictByteString dict "address" = none)
  | badAddressText {text : String} (hs : dictString dict "address" = some text)
      (h4 : p.inet.pton4 text = none) (h6 : p.inet.pton6 text = none)
  | badAddressBytes {bytes : List UInt8} (hs : dictString dict "address" = none)
      (hb : dictByteString dict "address" = some bytes) (h4 : bytes.length ≠ 4)
      (h16 : bytes.length ≠ 16)
  | badPort {port : Int32} (hv : dictInt32 dict "port" = some port)
      (h : port < 0 ∨ 65535 < port)
  | badProtocol {text : String} (hv : dictString dict "protocol" = some text)
      (h : ∀ protocol, ¬ texts.protocol text protocol)
  | badInterface {text : String} (hv : dictString dict "interface" = some text)
      (h : ifNamSiz ≤ text.utf8ByteSize)
  | badDomain {key : String} {domains : List String} {domain : String}
      (hk : key = "routing_domains" ∨ key = "search_domains")
      (hv : dictStringArray dict key = some domains) (hd : domain ∈ domains)
      (h : domainToIdn p domain = none)
  | badNetwork {networks : List String} {text : String}
      (hv : dictStringArray dict "networks" = some networks) (ht : text ∈ networks)
      (h : ∀ network, ¬ texts.network text network)

/-- A parser fails. -/
def Fails {α : Type} (result : Except ParseError α) : Prop :=
  ∃ error, result = .error error

@[simp] lemma fails_error {α : Type} (error : ParseError) :
    Fails (.error error : Except ParseError α) := ⟨error, rfl⟩

@[simp] lemma not_fails_ok {α : Type} (a : α) : ¬ Fails (.ok a : Except ParseError α) := by
  rintro ⟨e, he⟩
  cases he

/-- A sequence of two parsers fails if the first one does, or else the second one. -/
lemma fails_bind {α β : Type} {x : Except ParseError α} {f : α → Except ParseError β} :
    Fails (x >>= f) ↔ Fails x ∨ ∃ a, x = .ok a ∧ Fails (f a) := by
  cases x with
  | error e => simp [bind, Except.bind]
  | ok a => simp [bind, Except.bind]

lemma ok_bind {α β : Type} (a : α) (f : α → Except ParseError β) :
    ((.ok a : Except ParseError α) >>= f) = f a := rfl

/-- The loop converts all texts or fails at one that can not be converted. -/
lemma appendConverted_eq {α : Type} (convert : String → Option α) (error : ParseError)
    (texts : List String) (acc : List α) :
    appendConverted convert error texts acc =
      match texts.mapM convert with
      | some values => .ok (acc ++ values)
      | none => .error error := by
  induction texts generalizing acc with
  | nil => simp [appendConverted]
  | cons text texts ih =>
    unfold appendConverted
    cases hc : convert text with
    | none => simp [List.mapM_cons, hc]
    | some value =>
      dsimp only
      rw [ih]
      cases hm : texts.mapM convert with
      | none => simp [List.mapM_cons, hc, hm]
      | some values => simp [List.mapM_cons, hc, hm]

/-- The loop fails exactly if one of the texts can not be converted. -/
lemma fails_appendConverted {α : Type} {convert : String → Option α} {error : ParseError}
    {texts : List String} {acc : List α} :
    Fails (appendConverted convert error texts acc) ↔ ∃ text ∈ texts, convert text = none := by
  rw [appendConverted_eq, ← mapM_eq_none_iff]
  cases texts.mapM convert <;> simp

/-- The parser of a present field fails exactly on the values that it does not admit. -/
lemma fails_parsePresent {α : Type} {value : Option α} {parser : α → ServerUri → ParseResult}
    {bad : α → Prop} (h : ∀ v s, Fails (parser v s) ↔ bad v) {server : ServerUri} :
    Fails (parsePresent value parser server) ↔ ∃ v, value = some v ∧ bad v := by
  cases value with
  | none => simp [parsePresent]
  | some v => simp [parsePresent, h]

/-- A parser that admits every value never fails. -/
lemma not_fails_parsePresent {α : Type} {value : Option α}
    {parser : α → ServerUri → ParseResult} (h : ∀ v s, ¬ Fails (parser v s))
    {server : ServerUri} : ¬ Fails (parsePresent value parser server) := by
  cases value with
  | none => simp [parsePresent]
  | some v => simpa [parsePresent] using h v server

lemma fails_parsePort (port : Int32) (server : ServerUri) :
    Fails (parsePort port server) ↔ port < 0 ∨ 65535 < port := by
  unfold parsePort
  split <;> simp_all

lemma fails_parseProtocol (text : String) (server : ServerUri) :
    Fails (parseProtocol text server) ↔ protocolFromNstring text = .protocolsEnd := by
  unfold parseProtocol
  split <;> simp_all

lemma fails_parseInterface (text : String) (server : ServerUri) :
    Fails (parseInterface text server) ↔ ifNamSiz ≤ text.utf8ByteSize := by
  unfold parseInterface
  split <;> simp_all

lemma fails_parseDomains (p : Platform) (domains : List String) (server : ServerUri) :
    Fails (parseDomains p domains server) ↔ ∃ d ∈ domains, domainToIdn p d = none := by
  simp [parseDomains, saveDomains, fails_bind, fails_appendConverted, pure, Except.pure]

lemma fails_parseSearch (p : Platform) (domains : List String) (server : ServerUri) :
    Fails (parseSearch p domains server) ↔ ∃ d ∈ domains, domainToIdn p d = none := by
  simp [parseSearch, saveDomains, fails_bind, fails_appendConverted, pure, Except.pure]

lemma fails_parseNetworks (net : Inet) (texts : List String) (server : ServerUri) :
    Fails (parseNetworks net texts server) ↔
      ∃ t ∈ texts, networkAddressFromString net t = none := by
  simp [parseNetworks, fails_bind, fails_appendConverted, pure, Except.pure]

/-- The values that each row of `key_type_parser` rejects. -/
def RejectedValue (p : Platform) (dict : VariantDict) : FieldParser → Prop
  | .int32 key _ => key = "port" ∧ ∃ v, dictInt32 dict key = some v ∧ (v < 0 ∨ 65535 < v)
  | .string key _ =>
    (key = "protocol" ∧ ∃ v, dictString dict key = some v ∧
      protocolFromNstring v = .protocolsEnd) ∨
    (key = "interface" ∧ ∃ v, dictString dict key = some v ∧ ifNamSiz ≤ v.utf8ByteSize)
  | .boolean _ _ => False
  | .stringArray key _ =>
    ((key = "routing_domains" ∨ key = "search_domains") ∧
      ∃ v, dictStringArray dict key = some v ∧ ∃ d ∈ v, domainToIdn p d = none) ∨
    (key = "networks" ∧
      ∃ v, dictStringArray dict key = some v ∧ ∃ t ∈ v, networkAddressFromString p.inet t = none)

/-- A row of `key_type_parser` fails on the values it rejects, whatever the server. -/
lemma fails_run {p : Platform} {dict : VariantDict} {field : FieldParser}
    (hf : field ∈ keyTypeParser p) (server : ServerUri) :
    Fails (field.run dict server) ↔ RejectedValue p dict field := by
  simp only [keyTypeParser, List.mem_cons, List.not_mem_nil, or_false] at hf
  rcases hf with rfl | rfl | rfl | rfl | rfl | rfl | rfl | rfl | rfl | rfl
  · simp [FieldParser.run, RejectedValue, fails_parsePresent fails_parsePort]
  · simpa [FieldParser.run, RejectedValue] using
      not_fails_parsePresent fun v s => by simp [parsePriority]
  · simp [FieldParser.run, RejectedValue, fails_parsePresent fails_parseProtocol]
  · simp [FieldParser.run, RejectedValue, fails_parsePresent fails_parseInterface]
  · simpa [FieldParser.run, RejectedValue] using
      not_fails_parsePresent fun v s => by simp [parseDnssec]
  · simpa [FieldParser.run, RejectedValue] using
      not_fails_parsePresent fun v s => by simp [parseCa]
  · simpa [FieldParser.run, RejectedValue] using
      not_fails_parsePresent fun v s => by simp [parseName]
  · simp [FieldParser.run, RejectedValue, fails_parsePresent (fails_parseDomains p)]
  · simp [FieldParser.run, RejectedValue, fails_parsePresent (fails_parseSearch p)]
  · simp [FieldParser.run, RejectedValue, fails_parsePresent (fails_parseNetworks p.inet)]

/-- The loop over `key_type_parser` fails exactly if one of its rows does. -/
lemma fails_foldlM_run {p : Platform} {dict : VariantDict} {fields : List FieldParser}
    (hf : ∀ field ∈ fields, field ∈ keyTypeParser p) (server : ServerUri) :
    Fails (fields.foldlM (fun server field => field.run dict server) server) ↔
      ∃ field ∈ fields, RejectedValue p dict field := by
  induction fields generalizing server with
  | nil => simp [pure, Except.pure]
  | cons field fields ih =>
    have hrest := fun server => ih (fun f h => hf f (List.mem_cons_of_mem _ h)) server
    rw [List.foldlM_cons, fails_bind, fails_run (hf field List.mem_cons_self)]
    simp only [hrest, List.mem_cons, exists_eq_or_imp]
    constructor
    · rintro (h | ⟨s, -, h⟩)
      · exact Or.inl h
      · exact Or.inr h
    · rintro (h | h)
      · exact Or.inl h
      · by_cases hrej : RejectedValue p dict field
        · exact Or.inl hrej
        · rw [← fails_run (hf field List.mem_cons_self) server] at hrej
          cases hrun : field.run dict server with
          | error e => exact absurd ⟨e, hrun⟩ hrej
          | ok s => exact Or.inr ⟨s, rfl, h⟩

/-- `parse_address` fails exactly if the address is missing or is not one. -/
lemma fails_parseAddress {net : Inet} {dict : VariantDict} {server : ServerUri} :
    Fails (parseAddress net dict server) ↔
      (dictString dict "address" = none ∧ dictByteString dict "address" = none) ∨
      (∃ text, dictString dict "address" = some text ∧ net.pton4 text = none ∧
        net.pton6 text = none) ∨
      (∃ bytes, dictString dict "address" = none ∧ dictByteString dict "address" = some bytes ∧
        bytes.length ≠ 4 ∧ bytes.length ≠ 16) := by
  unfold parseAddress
  cases dictString dict "address" with
  | some text =>
    unfold parseIpStr
    cases h4 : net.pton4 text with
    | some a => simp [h4]
    | none => cases h6 : net.pton6 text <;> simp [h4, h6]
  | none =>
    cases dictByteString dict "address" with
    | none => simp
    | some bytes =>
      by_cases h4 : bytes.length = 4
      · simp [h4]
      · by_cases h16 : bytes.length = 16 <;> simp [h4, h16]

/-- The names that `protocol_from_nstring` does not know. -/
lemma not_parsed_protocol_iff {net : Inet} {text : String} :
    (∀ protocol, ¬ (FieldTexts.parsed net).protocol text protocol) ↔
      protocolFromNstring text = .protocolsEnd := by
  constructor
  · intro h
    by_contra hne
    exact h _ ⟨hne, rfl⟩
  · rintro hend protocol ⟨hne, rfl⟩
    exact hne hend

/-- The texts that `network_address_t_from_string` rejects. -/
lemma not_parsed_network_iff {net : Inet} {text : String} :
    (∀ network, ¬ (FieldTexts.parsed net).network text network) ↔
      networkAddressFromString net text = none :=
  Option.eq_none_iff_forall_ne_some.symm

/-- A field that is rejected makes the dictionary invalid. -/
lemma invalidDict_of_rejectedValue {p : Platform} {dict : VariantDict} {field : FieldParser}
    (h : RejectedValue p dict field) : InvalidDict (.parsed p.inet) p dict := by
  cases field with
  | int32 key parser =>
    obtain ⟨rfl, v, hv, hbad⟩ := h
    exact .badPort hv hbad
  | string key parser =>
    rcases h with ⟨rfl, v, hv, hbad⟩ | ⟨rfl, v, hv, hbad⟩
    · exact .badProtocol hv (not_parsed_protocol_iff.mpr hbad)
    · exact .badInterface hv hbad
  | boolean key parser => exact h.elim
  | stringArray key parser =>
    rcases h with ⟨hk, v, hv, d, hd, hbad⟩ | ⟨rfl, v, hv, t, ht, hbad⟩
    · exact .badDomain hk hv hd hbad
    · exact .badNetwork hv ht (not_parsed_network_iff.mpr hbad)

/-- Exactly the invalid dictionaries are rejected, with texts as the functions for them read them. -/
theorem fails_parseServerDict {p : Platform} {dict : VariantDict} :
    Fails (parseServerDict p dict) ↔ InvalidDict (.parsed p.inet) p dict := by
  have hfields := fun server =>
    @fails_foldlM_run p dict _ (fun field (h : field ∈ keyTypeParser p) => h) server
  have hcases : Fails (parseServerDict p dict) ↔
      Fails (parseAddress p.inet dict ServerUri.initial) ∨
        ∃ field ∈ keyTypeParser p, RejectedValue p dict field := by
    simp only [parseServerDict, fails_bind, hfields, pure, Except.pure, not_fails_ok, and_false,
      exists_false, or_false]
    cases haddr : parseAddress p.inet dict ServerUri.initial with
    | error e => simp
    | ok s => simp
  rw [hcases]
  constructor
  · rintro (haddr | ⟨field, -, hrej⟩)
    · rcases fails_parseAddress.mp haddr with ⟨hs, hb⟩ | ⟨text, hs, h4, h6⟩ |
        ⟨bytes, hs, hb, h4, h16⟩
      · exact .missingAddress hs hb
      · exact .badAddressText hs h4 h6
      · exact .badAddressBytes hs hb h4 h16
    · exact invalidDict_of_rejectedValue hrej
  · intro h
    cases h with
    | missingAddress hs hb => exact Or.inl (fails_parseAddress.mpr (Or.inl ⟨hs, hb⟩))
    | badAddressText hs h4 h6 =>
      exact Or.inl (fails_parseAddress.mpr (Or.inr (Or.inl ⟨_, hs, h4, h6⟩)))
    | badAddressBytes hs hb h4 h16 =>
      exact Or.inl (fails_parseAddress.mpr (Or.inr (Or.inr ⟨_, hs, hb, h4, h16⟩)))
    | badPort hv h => exact Or.inr ⟨.int32 "port" parsePort, by simp [keyTypeParser], rfl, _, hv, h⟩
    | badProtocol hv h =>
      exact Or.inr ⟨.string "protocol" parseProtocol, by simp [keyTypeParser],
        Or.inl ⟨rfl, _, hv, not_parsed_protocol_iff.mp h⟩⟩
    | badInterface hv h =>
      exact Or.inr ⟨.string "interface" parseInterface, by simp [keyTypeParser],
        Or.inr ⟨rfl, _, hv, h⟩⟩
    | badDomain hk hv hd h =>
      rcases hk with rfl | rfl
      · exact Or.inr ⟨.stringArray "routing_domains" (parseDomains p), by simp [keyTypeParser],
          Or.inl ⟨Or.inl rfl, _, hv, _, hd, h⟩⟩
      · exact Or.inr ⟨.stringArray "search_domains" (parseSearch p), by simp [keyTypeParser],
          Or.inl ⟨Or.inr rfl, _, hv, _, hd, h⟩⟩
    | badNetwork hv ht h =>
      exact Or.inr ⟨.stringArray "networks" (parseNetworks p.inet), by simp [keyTypeParser],
        Or.inr ⟨rfl, _, hv, _, ht, not_parsed_network_iff.mp h⟩⟩

/-- The loop over the dictionaries fails exactly if one of them is invalid, at whatever
position. -/
theorem fails_parseServers {p : Platform} {isWireless : String → Bool} {dicts : List VariantDict}
    {parsedServers : List ServerUri} :
    Fails (parseServers p isWireless dicts parsedServers) ↔
      ∃ dict ∈ dicts, InvalidDict (.parsed p.inet) p dict := by
  induction dicts generalizing parsedServers with
  | nil => simp [parseServers]
  | cons dict dicts ih =>
    rw [parseServers, fails_bind, fails_parseServerDict]
    constructor
    · rintro (h | ⟨server, -, h⟩)
      · exact ⟨dict, List.mem_cons_self, h⟩
      · have hrest : ∃ dict ∈ dicts, InvalidDict (.parsed p.inet) p dict := by
          split at h <;> exact ih.mp h
        obtain ⟨d, hd, hinv⟩ := hrest
        exact ⟨d, List.mem_cons_of_mem _ hd, hinv⟩
    · rintro ⟨d, hd, hinv⟩
      by_cases hdict : InvalidDict (.parsed p.inet) p dict
      · exact Or.inl hdict
      · have hmem : d ∈ dicts := by
          rcases List.mem_cons.mp hd with rfl | h
          · exact absurd hinv hdict
          · exact h
        cases hparse : parseServerDict p dict with
        | error e => exact absurd (fails_parseServerDict.mp ⟨e, hparse⟩) hdict
        | ok server =>
          refine Or.inr ⟨server, rfl, ?_⟩
          split <;> exact ih.mpr ⟨d, hmem, hinv⟩

end Dnsconfd
