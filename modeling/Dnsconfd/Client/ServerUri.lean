import Dnsconfd.WellFormed

/-!
# The client's parsers

The client reads servers from a JSON text (`server_uri_t_list_from_json`) or from URIs
(`server_uri_t_init_from_string`).  The texts themselves are taken apart by jansson and uriparser,
which are parameters.  Whatever a parser accepts satisfies `IsParsed`.  Allocations are assumed to
succeed.
-/

namespace Dnsconfd

open Library

/-! ## Libraries -/

/-- `json_t`, without the values of real numbers. -/
inductive Json where
  | null
  | boolean (value : Bool)
  | integer (value : ℤ)
  | real
  | string (value : String)
  | array (values : List Json)
  | object (fields : List (String × Json))

/-- `json_object_get`; of a repeated key jansson keeps the last value. -/
def jsonObjectGet : List (String × Json) → String → Option Json
  | [], _ => none
  | (k, v) :: fields, key => (jsonObjectGet fields key).or (if k = key then some v else none)

/-- The ranges of a `UriUriA` that the client reads; a range that is not set is empty. -/
structure ParsedUri where
  scheme : String
  hostText : String
  portText : String
  query : String

/-- The functions of jansson and uriparser that take texts apart: `json_loads`,
`uriParseSingleUriA` and `uriDissectQueryMallocA`, whose result lists keys with optional values. -/
structure TextLibraries where
  jsonLoads : String → Option Json
  uriParseSingleUri : String → Option ParsedUri
  uriDissectQuery : String → Option (List (String × Option String))

/-! ## Fields in common -/

/-- The store of a port that was checked to fit. -/
def storePort (port : ℤ) (uri : ServerUri) : Option ServerUri :=
  if port < 0 ∨ 65535 < port then none
  else some { uri with address := uri.address.withPort (UInt16.ofNat port.toNat) }

/-- The store of a priority that fits an `int`. -/
def storePriority (priority : ℤ) (uri : ServerUri) : Option ServerUri :=
  if priority < -2147483648 ∨ 2147483647 < priority then none
  else some { uri with priority := Int32.ofInt priority }

/-- The store of the name of an interface. -/
def storeInterface (interface : String) (uri : ServerUri) : Option ServerUri :=
  if ifNamSiz ≤ interface.utf8ByteSize then none else some { uri with interface := interface }

/-- The store of a network given as a text. -/
def storeNetwork (net : Inet) (text : String) (uri : ServerUri) : Option ServerUri :=
  (networkAddressFromString net text).map fun network =>
    { uri with networks := uri.networks ++ [network] }

/-! ## JSON -/

/-- `parse_json_address_field`. -/
def parseJsonAddressField (net : Inet) (field : Option Json) (uri : ServerUri) :
    Option ServerUri :=
  match field with
  | some (.string text) =>
    (parseIpStr net text uri.address.port).map fun address => { uri with address := address }
  | _ => none

/-- `parse_json_port_field`. -/
def parseJsonPortField (field : Json) (uri : ServerUri) : Option ServerUri :=
  match field with
  | .integer numericValue => storePort numericValue uri
  | _ => none

/-- `parse_json_protocol_field`. -/
def parseJsonProtocolField (field : Json) (uri : ServerUri) : Option ServerUri :=
  match field with
  | .string text =>
    if protocolFromNstring text = .protocolsEnd then none
    else some { uri with protocol := protocolFromNstring text }
  | _ => none

/-- `parse_json_priority_field`. -/
def parseJsonPriorityField (field : Json) (uri : ServerUri) : Option ServerUri :=
  match field with
  | .integer numericValue => storePriority numericValue uri
  | _ => none

/-- `parse_json_interface_field`. -/
def parseJsonInterfaceField (field : Json) (uri : ServerUri) : Option ServerUri :=
  match field with
  | .string strVal => storeInterface strVal uri
  | _ => none

/-- `parse_json_dnssec_field`; a string other than `"0"` changes nothing. -/
def parseJsonDnssecField (field : Json) (uri : ServerUri) : Option ServerUri :=
  match field with
  | .boolean value => some { uri with dnssec := if value then 1 else 0 }
  | .integer value => some { uri with dnssec := if value ≠ 0 then 1 else 0 }
  | .string value => some (if value = "0" then { uri with dnssec := 0 } else uri)
  | _ => none

/-- `parse_json_ca_field`. -/
def parseJsonCaField (field : Json) (uri : ServerUri) : Option ServerUri :=
  match field with
  | .string text => some { uri with certificationAuthority := some text }
  | _ => none

/-- `parse_json_name_field`. -/
def parseJsonNameField (field : Json) (uri : ServerUri) : Option ServerUri :=
  match field with
  | .string text => some { uri with name := some text }
  | _ => none

/-- `parse_json_string_list`: the texts of an array are appended to a list. -/
def parseJsonStringList (field : Json) (list : List String) : Option (List String) :=
  match field with
  | .array values =>
    values.foldlM (fun list value =>
      match value with
      | .string text => some (list ++ [text])
      | _ => none) list
  | _ => none

/-- `parse_json_domains_field`. -/
def parseJsonDomainsField (field : Json) (uri : ServerUri) : Option ServerUri :=
  (parseJsonStringList field uri.routingDomains).map fun domains =>
    { uri with routingDomains := domains }

/-- `parse_json_search_domains_field`. -/
def parseJsonSearchDomainsField (field : Json) (uri : ServerUri) : Option ServerUri :=
  (parseJsonStringList field uri.searchDomains).map fun domains =>
    { uri with searchDomains := domains }

/-- `parse_json_networks_field`. -/
def parseJsonNetworksField (net : Inet) (field : Json) (uri : ServerUri) : Option ServerUri :=
  match field with
  | .array values =>
    values.foldlM (fun uri value =>
      match value with
      | .string text => storeNetwork net text uri
      | _ => none) uri
  | _ => none

/-- `optional_fields`. -/
def optionalFields (net : Inet) : List (String × (Json → ServerUri → Option ServerUri)) :=
  [("port", parseJsonPortField), ("protocol", parseJsonProtocolField),
    ("priority", parseJsonPriorityField), ("interface", parseJsonInterfaceField),
    ("dnssec", parseJsonDnssecField), ("ca", parseJsonCaField), ("name", parseJsonNameField),
    ("routing_domains", parseJsonDomainsField), ("search_domains", parseJsonSearchDomainsField),
    ("networks", parseJsonNetworksField net)]

/-- One iteration over `optional_fields`: a field that is not there is skipped. -/
def parseOptionalField (object : List (String × Json)) (uri : ServerUri)
    (field : String × (Json → ServerUri → Option ServerUri)) : Option ServerUri :=
  match jsonObjectGet object field.1 with
  | some value => field.2 value uri
  | none => some uri

/-- The body of the loop of `server_uri_t_list_from_json`. -/
def serverFromJson (net : Inet) (value : Json) : Option ServerUri :=
  match value with
  | .object fields => do
    let uri ← parseJsonAddressField net (jsonObjectGet fields "address") ServerUri.initial
    (optionalFields net).foldlM (parseOptionalField fields) uri
  | _ => none

/-- `server_uri_t_list_from_json`; the empty list is also what it returns on an error. -/
def serverUriListFromJson (lib : TextLibraries) (net : Inet) (serverList : String) :
    List ServerUri :=
  match lib.jsonLoads serverList with
  | some (.array values) => (values.mapM (serverFromJson net)).getD []
  | _ => []

/-! ## URIs -/

/-- One iteration of `parse_query`; unknown keys are ignored. -/
def parseQueryItem (net : Inet) (uri : ServerUri) (item : String × Option String) :
    Option ServerUri :=
  match item.2 with
  | none => none
  | some value =>
    if item.1 = "priority" then
      let number := strtol value.toList
      if number.2 ≠ [] then none else storePriority number.1 uri
    else if item.1 = "domain" then
      some { uri with routingDomains := uri.routingDomains ++ [value] }
    else if item.1 = "search" then
      some { uri with searchDomains := uri.searchDomains ++ [value] }
    else if item.1 = "interface" then storeInterface value uri
    else if item.1 = "dnssec" then
      some (if value.toList.head? = some '0' then { uri with dnssec := 0 } else uri)
    else if item.1 = "ca" then some { uri with certificationAuthority := some value }
    else if item.1 = "name" then some { uri with name := some value }
    else if item.1 = "network" then storeNetwork net value uri
    else some uri

/-- `parse_query`. -/
def parseQuery (lib : TextLibraries) (net : Inet) (query : String) (uri : ServerUri) :
    Option ServerUri := do
  let items ← lib.uriDissectQuery query
  items.foldlM (parseQueryItem net) uri

/-- The protocol is that of the scheme, if there is one. -/
def initScheme (parsedUri : ParsedUri) : Option ServerUri :=
  if parsedUri.scheme = "" then some ServerUri.initial
  else if protocolFromNstring parsedUri.scheme = .protocolsEnd then none
  else some { ServerUri.initial with protocol := protocolFromNstring parsedUri.scheme }

/-- The address is the host. -/
def initHost (net : Inet) (parsedUri : ParsedUri) (uri : ServerUri) : Option ServerUri :=
  if inet6AddrStrLen < parsedUri.hostText.utf8ByteSize then none
  else
    (parseIpStr net parsedUri.hostText uri.address.port).map fun address =>
      { uri with address := address }

/-- The port, if there is one.  `strtol` is given the text of the URI from there on and stops at
the first character that is not a digit, as the range of the port does. -/
def initPort (parsedUri : ParsedUri) (uri : ServerUri) : Option ServerUri :=
  if parsedUri.portText = "" then some uri
  else storePort (strtol parsedUri.portText.toList).1 uri

/-- `server_uri_t_init_from_string`. -/
def serverUriInitFromString (lib : TextLibraries) (net : Inet) (uriString : String) :
    Option ServerUri := do
  let parsedUri ← lib.uriParseSingleUri uriString
  let uri ← initScheme parsedUri
  let uri ← initHost net parsedUri uri
  let uri ← initPort parsedUri uri
  if parsedUri.query = "" then some uri else parseQuery lib net parsedUri.query uri

/-! ## What the parsers accept -/

namespace IsParsed

variable {uri uri' : ServerUri}

lemma storePort {port : ℤ} (h : IsParsed uri) (hs : storePort port uri = some uri') :
    IsParsed uri' := by
  unfold Dnsconfd.storePort at hs
  split_ifs at hs
  obtain rfl := Option.some.inj hs
  exact ⟨by simpa using h.address, h.interface, h.dnssec, h.protocol, h.networks⟩

lemma storePriority {priority : ℤ} (h : IsParsed uri)
    (hs : storePriority priority uri = some uri') : IsParsed uri' := by
  unfold Dnsconfd.storePriority at hs
  split_ifs at hs
  obtain rfl := Option.some.inj hs
  exact ⟨h.address, h.interface, h.dnssec, h.protocol, h.networks⟩

lemma storeInterface {interface : String} (h : IsParsed uri)
    (hs : storeInterface interface uri = some uri') : IsParsed uri' := by
  unfold Dnsconfd.storeInterface at hs
  split_ifs at hs with hsize
  obtain rfl := Option.some.inj hs
  exact ⟨h.address, Nat.lt_of_not_le hsize, h.dnssec, h.protocol, h.networks⟩

lemma storeNetwork {net : Inet} {text : String} (h : IsParsed uri)
    (hs : storeNetwork net text uri = some uri') : IsParsed uri' := by
  obtain ⟨network, hnetwork, rfl⟩ := Option.map_eq_some_iff.mp hs
  refine ⟨h.address, h.interface, h.dnssec, h.protocol, fun n hn => ?_⟩
  rcases List.mem_append.mp hn with hn | hn
  · exact h.networks n hn
  · rw [List.mem_singleton.mp hn]
    exact isCidr_of_networkAddressFromString hnetwork

/-- Every optional field of a JSON object. -/
lemma optionalField {net : Inet} {field : String × (Json → ServerUri → Option ServerUri)}
    (hfield : field ∈ optionalFields net) {value : Json} (h : IsParsed uri)
    (hs : field.2 value uri = some uri') : IsParsed uri' := by
  simp only [optionalFields, List.mem_cons, List.not_mem_nil, or_false] at hfield
  rcases hfield with rfl | rfl | rfl | rfl | rfl | rfl | rfl | rfl | rfl | rfl
  · cases value with
    | integer n => exact h.storePort hs
    | _ => cases hs
  · cases value with
    | string text =>
      simp only [parseJsonProtocolField] at hs
      split_ifs at hs with hend
      obtain rfl := Option.some.inj hs
      exact ⟨h.address, h.interface, h.dnssec, hend, h.networks⟩
    | _ => cases hs
  · cases value with
    | integer n => exact h.storePriority hs
    | _ => cases hs
  · cases value with
    | string text => exact h.storeInterface hs
    | _ => cases hs
  · cases value with
    | boolean b =>
      obtain rfl := Option.some.inj hs
      exact h.withDnssec (by cases b <;> simp)
    | integer n =>
      obtain rfl := Option.some.inj hs
      refine h.withDnssec ?_
      split_ifs
      · exact Or.inr rfl
      · exact Or.inl rfl
    | string text =>
      obtain rfl := Option.some.inj hs
      split_ifs
      · exact h.withDnssec (Or.inl rfl)
      · exact h
    | _ => cases hs
  · cases value with
    | string text =>
      obtain rfl := Option.some.inj hs
      exact h.withNames
    | _ => cases hs
  · cases value with
    | string text =>
      obtain rfl := Option.some.inj hs
      exact h.withNames
    | _ => cases hs
  · obtain ⟨domains, -, rfl⟩ := Option.map_eq_some_iff.mp hs
    exact h.withDomains
  · obtain ⟨domains, -, rfl⟩ := Option.map_eq_some_iff.mp hs
    exact h.withDomains
  · cases value with
    | array values =>
      refine foldlM_invariant (fun value _ uri uri' h hs => ?_) h hs
      cases value with
      | string text => exact h.storeNetwork hs
      | _ => cases hs
    | _ => cases hs

/-- Every item of a query. -/
lemma queryItem {net : Inet} {item : String × Option String} (h : IsParsed uri)
    (hs : parseQueryItem net uri item = some uri') : IsParsed uri' := by
  unfold parseQueryItem at hs
  split at hs
  · cases hs
  split at hs
  · dsimp only at hs
    split at hs
    · cases hs
    · exact h.storePriority hs
  split at hs
  · obtain rfl := Option.some.inj hs
    exact h.withDomains
  split at hs
  · obtain rfl := Option.some.inj hs
    exact h.withDomains
  split at hs
  · exact h.storeInterface hs
  split at hs
  · obtain rfl := Option.some.inj hs
    split
    · exact h.withDnssec (Or.inl rfl)
    · exact h
  split at hs
  · obtain rfl := Option.some.inj hs
    exact h.withNames
  split at hs
  · obtain rfl := Option.some.inj hs
    exact h.withNames
  split at hs
  · exact h.storeNetwork hs
  · obtain rfl := Option.some.inj hs
    exact h

end IsParsed

/-- A server with an address and a protocol and nothing else. -/
lemma isParsed_of_address {address : SockAddr} {protocol : DnsProtocol}
    (haddress : address.isIp = true) (hprotocol : protocol ≠ .protocolsEnd) :
    IsParsed { ServerUri.initial with address := address, protocol := protocol } :=
  ⟨haddress, (by decide : ServerUri.initial.interface.utf8ByteSize < ifNamSiz), Or.inr rfl,
    hprotocol, by simp [ServerUri.initial]⟩

/-- Every server read from JSON. -/
theorem isParsed_of_mem_json {lib : TextLibraries} {net : Inet} {text : String} {s : ServerUri}
    (hs : s ∈ serverUriListFromJson lib net text) : IsParsed s := by
  have hserver : ∀ {value : Json} {s : ServerUri}, serverFromJson net value = some s →
      IsParsed s := by
    intro value s hs
    cases value with
    | object fields =>
      obtain ⟨uri, haddress, hfields⟩ := Option.bind_eq_some_iff.mp hs
      have huri : IsParsed uri := by
        unfold parseJsonAddressField at haddress
        split at haddress
        · obtain ⟨address, hparse, rfl⟩ := Option.map_eq_some_iff.mp haddress
          exact isParsed_of_address (isIp_of_parseIpStr hparse) (by simp [ServerUri.initial])
        · cases haddress
      refine foldlM_invariant (fun field hfield uri uri' h hstep => ?_) huri hfields
      unfold parseOptionalField at hstep
      split at hstep
      · exact h.optionalField hfield hstep
      · obtain rfl := Option.some.inj hstep
        exact h
    | _ => cases hs
  unfold serverUriListFromJson at hs
  split at hs
  · rename_i values _
    cases hall : values.mapM (serverFromJson net) with
    | none => simp [hall] at hs
    | some servers =>
      rw [hall, Option.getD_some] at hs
      obtain ⟨value, -, hvalue⟩ := exists_of_mem_mapM hall hs
      exact hserver hvalue
  · cases hs

/-- Every server read from a URI. -/
theorem isParsed_of_uri {lib : TextLibraries} {net : Inet} {text : String} {s : ServerUri}
    (hs : serverUriInitFromString lib net text = some s) : IsParsed s := by
  obtain ⟨parsedUri, -, hparsed⟩ := Option.bind_eq_some_iff.mp hs
  obtain ⟨uri₁, hscheme, hrest₁⟩ := Option.bind_eq_some_iff.mp hparsed
  obtain ⟨uri₂, hhost, hrest₂⟩ := Option.bind_eq_some_iff.mp hrest₁
  obtain ⟨uri₃, hport, hquery⟩ := Option.bind_eq_some_iff.mp hrest₂
  have hprotocol : ∃ protocol ≠ DnsProtocol.protocolsEnd,
      uri₁ = { ServerUri.initial with protocol := protocol } := by
    unfold initScheme at hscheme
    split_ifs at hscheme with hempty hend
    · exact ⟨.udp, by simp, (Option.some.inj hscheme).symm⟩
    · exact ⟨_, hend, (Option.some.inj hscheme).symm⟩
  obtain ⟨protocol, hne, rfl⟩ := hprotocol
  have huri₂ : IsParsed uri₂ := by
    unfold initHost at hhost
    split_ifs at hhost
    obtain ⟨address, hparse, rfl⟩ := Option.map_eq_some_iff.mp hhost
    exact isParsed_of_address (isIp_of_parseIpStr hparse) hne
  have huri₃ : IsParsed uri₃ := by
    unfold initPort at hport
    split_ifs at hport
    · obtain rfl := Option.some.inj hport
      exact huri₂
    · exact huri₂.storePort hport
  split at hquery
  · obtain rfl := Option.some.inj hquery
    exact huri₃
  · obtain ⟨items, -, hitems⟩ := Option.bind_eq_some_iff.mp hquery
    exact foldlM_invariant (fun item _ uri uri' h hstep => h.queryItem hstep) huri₃ hitems

end Dnsconfd
