import Dnsconfd.TextValues
import Dnsconfd.Library.TransitionSystem

/-!
# Servers given as JSON

`dnsconfd update --json` takes its servers from an array of objects.  What an object means is said
here without the parser: `DescribesServer` relates the fields of an object to a server, one field of
the server at a time, with a default for each that is not given.  The parser goes through a table of
fields and stores one after the other; `serverFromJson_iff` is the comparison.

The list of servers is also what says whether there was an error: an empty list is one.  So the
empty array, which describes no servers, is rejected.  Apart from this, and from the two texts inside
of fields that are read too generously, the command accepts what it should (`json_update_exact_iff`).
-/

namespace Dnsconfd

open Library

/-! ## The command -/

/-- What `argp` passes to the parser of the command. -/
inductive UpdateOption where
  | json
  | mode (arg : String)
  | arg (arg : String)

/-- `update_command_options_t`, and whether a text has been parsed as JSON. -/
structure UpdateCommand where
  mode : Mode
  json : Bool
  serversUris : List ServerUri
  parsedAsJson : Bool

/-- The options before the command line is parsed. -/
def UpdateCommand.initial : UpdateCommand where
  mode := .backup
  json := false
  serversUris := []
  parsedAsJson := false

/-- `parse_update_command_opt`; `argp_error` ends the program.  The mode `backup` changes nothing. -/
def parseUpdateCommandOpt (lib : TextLibraries) (net : Inet) (config : UpdateCommand) :
    UpdateOption → Except String UpdateCommand
  | .json => .ok { config with json := true }
  | .mode arg =>
    if sameIgnoringCase arg "backup" then .ok config
    else if sameIgnoringCase arg "prefer" then .ok { config with mode := .prefer }
    else if sameIgnoringCase arg "exclusive" then .ok { config with mode := .exclusive }
    else .error ("Invalid mode: " ++ arg)
  | .arg arg =>
    if config.parsedAsJson then .error "When JSON was enabled, only one string is allowed"
    else if config.json then
      let serversUris := serverUriListFromJson lib net arg
      if serversUris = [] then .error "Servers JSON is badly formed"
      else .ok { config with serversUris := serversUris, parsedAsJson := true }
    else
      match serverUriInitFromString lib net arg with
      | none => .error ("Badly formated URI " ++ arg)
      | some newServer => .ok { config with serversUris := config.serversUris ++ [newServer] }

/-- `parse_update_command`. -/
def parseUpdateCommand (lib : TextLibraries) (net : Inet) (options : List UpdateOption) :
    Except String UpdateCommand :=
  options.foldlM (parseUpdateCommandOpt lib net) .initial

/-! ## What an object describes -/

/-- The value of an optional field: what it gives if it is there, or else the default. -/
def IsGiven {α : Type} (gives : Json → α → Prop) (default : α) : Option Json → α → Prop
  | none, value => value = default
  | some json, value => gives json value

/-- A port, as the address with that port. -/
def GivesPort (address : SockAddr) (json : Json) (value : SockAddr) : Prop :=
  ∃ port : UInt16, json = .integer port.toNat ∧ value = address.withPort port

/-- The name of a protocol. -/
def GivesProtocol (texts : FieldTexts) (json : Json) (value : DnsProtocol) : Prop :=
  ∃ text, json = .string text ∧ texts.protocol text value

/-- An integer that fits a priority. -/
def GivesPriority (json : Json) (value : Int32) : Prop :=
  json = .integer value.toInt

/-- The name of an interface, which has to be short enough. -/
def GivesInterface (json : Json) (value : String) : Prop :=
  json = .string value ∧ value.utf8ByteSize < ifNamSiz

/-- A boolean, an integer or a string that says whether there is DNSSEC. -/
def GivesDnssec : Json → UInt8 → Prop
  | .boolean b, value => value = if b then 1 else 0
  | .integer n, value => value = if n ≠ 0 then 1 else 0
  | .string text, value => value = if text = "0" then 0 else 1
  | _, _ => False

/-- A text. -/
def GivesText (json : Json) (value : Option String) : Prop :=
  ∃ text, json = .string text ∧ value = some text

/-- A list of texts. -/
def GivesTexts (json : Json) (value : List String) : Prop :=
  json = .array (value.map .string)

/-- A list of networks. -/
def GivesNetworks (texts : FieldTexts) (json : Json) (value : List NetworkAddress) : Prop :=
  ∃ items, json = .array (items.map .string) ∧ List.Forall₂ texts.network items value

/-- The object describes the server: it has an address, the fields that are there give what the
server has, and the server has the defaults for the others. -/
structure DescribesServer (texts : FieldTexts) (net : Inet) (fields : List (String × Json))
    (uri : ServerUri) : Prop where
  address : ∃ text address, jsonObjectGet fields "address" = some (.string text) ∧
    parseIpStr net text 0 = some address ∧
    IsGiven (GivesPort address) address (jsonObjectGet fields "port") uri.address
  protocol : IsGiven (GivesProtocol texts) .udp (jsonObjectGet fields "protocol") uri.protocol
  priority : IsGiven GivesPriority 0 (jsonObjectGet fields "priority") uri.priority
  interface : IsGiven GivesInterface "" (jsonObjectGet fields "interface") uri.interface
  dnssec : IsGiven GivesDnssec 1 (jsonObjectGet fields "dnssec") uri.dnssec
  ca : IsGiven GivesText none (jsonObjectGet fields "ca") uri.certificationAuthority
  name : IsGiven GivesText none (jsonObjectGet fields "name") uri.name
  routingDomains :
    IsGiven GivesTexts [] (jsonObjectGet fields "routing_domains") uri.routingDomains
  searchDomains : IsGiven GivesTexts [] (jsonObjectGet fields "search_domains") uri.searchDomains
  networks : IsGiven (GivesNetworks texts) [] (jsonObjectGet fields "networks") uri.networks

/-- The text is an array of objects that describe the servers, one after the other. -/
def DescribesServers (texts : FieldTexts) (lib : TextLibraries) (net : Inet) (text : String)
    (servers : List ServerUri) : Prop :=
  ∃ values, lib.jsonLoads text = some (.array values) ∧
    List.Forall₂ (fun value uri => ∃ fields, value = .object fields ∧
      DescribesServer texts net fields uri) values servers

/-! ## The parsers of the fields -/

section Fields

variable {net : Inet} {json : Json} {uri uri' : ServerUri}

lemma parseJsonPortField_iff :
    parseJsonPortField json uri = some uri' ↔
      ∃ value, GivesPort uri.address json value ∧ uri' = { uri with address := value } := by
  cases json with
  | integer n =>
    simp only [parseJsonPortField, storePort]
    constructor
    · intro h
      split_ifs at h with hrange
      rw [not_or, Int.not_lt, Int.not_lt] at hrange
      have hport : ((UInt16.ofNat n.toNat).toNat : ℤ) = n := by
        rw [UInt16.toNat_ofNat']
        omega
      refine ⟨_, ⟨UInt16.ofNat n.toNat, ?_, rfl⟩, (Option.some.inj h).symm⟩
      rw [hport]
    · rintro ⟨_, ⟨port, hport, rfl⟩, rfl⟩
      obtain rfl := Json.integer.inj hport
      have hlt := port.toNat_lt
      rw [if_neg (by omega), Int.toNat_natCast, UInt16.ofNat_toNat]
  | null | boolean | real | string | array | object =>
    simp [parseJsonPortField, GivesPort]

lemma parseJsonProtocolField_iff :
    parseJsonProtocolField json uri = some uri' ↔
      ∃ value, GivesProtocol (.parsed net) json value ∧ uri' = { uri with protocol := value } := by
  cases json with
  | string text =>
    simp only [parseJsonProtocolField]
    constructor
    · intro h
      split_ifs at h with hend
      exact ⟨_, ⟨text, rfl, hend, rfl⟩, (Option.some.inj h).symm⟩
    · rintro ⟨_, ⟨text', htext, hend, rfl⟩, rfl⟩
      obtain rfl := Json.string.inj htext
      rw [if_neg hend]
  | null | boolean | integer | real | array | object =>
    simp [parseJsonProtocolField, GivesProtocol]

lemma parseJsonPriorityField_iff :
    parseJsonPriorityField json uri = some uri' ↔
      ∃ value, GivesPriority json value ∧ uri' = { uri with priority := value } := by
  cases json with
  | integer n =>
    simp only [parseJsonPriorityField, storePriority]
    constructor
    · intro h
      split_ifs at h with hrange
      rw [not_or, Int.not_lt, Int.not_lt] at hrange
      refine ⟨_, ?_, (Option.some.inj h).symm⟩
      rw [GivesPriority, toInt_ofInt_priority hrange.1 hrange.2]
    · rintro ⟨value, hvalue, rfl⟩
      obtain rfl := Json.integer.inj hvalue
      have hlow := value.le_toInt
      have hhigh := value.toInt_lt
      rw [if_neg (by omega), Int32.ofInt_toInt]
  | null | boolean | real | string | array | object =>
    simp [parseJsonPriorityField, GivesPriority]

lemma parseJsonInterfaceField_iff :
    parseJsonInterfaceField json uri = some uri' ↔
      ∃ value, GivesInterface json value ∧ uri' = { uri with interface := value } := by
  cases json with
  | string text =>
    simp only [parseJsonInterfaceField, storeInterface]
    constructor
    · intro h
      split_ifs at h with hlong
      exact ⟨text, ⟨rfl, Nat.lt_of_not_le hlong⟩, (Option.some.inj h).symm⟩
    · rintro ⟨value, ⟨hvalue, hshort⟩, rfl⟩
      obtain rfl := Json.string.inj hvalue
      rw [if_neg (Nat.not_le.mpr hshort)]
  | null | boolean | integer | real | array | object =>
    simp [parseJsonInterfaceField, GivesInterface]

/-- A string other than `"0"` leaves the default. -/
lemma parseJsonDnssecField_iff (hdefault : uri.dnssec = 1) :
    parseJsonDnssecField json uri = some uri' ↔
      ∃ value, GivesDnssec json value ∧ uri' = { uri with dnssec := value } := by
  cases json with
  | boolean b => simp [parseJsonDnssecField, GivesDnssec, eq_comm]
  | integer n => simp [parseJsonDnssecField, GivesDnssec, eq_comm]
  | string text =>
    have hone : uri = { uri with dnssec := 1 } := by rw [← hdefault]
    simp only [parseJsonDnssecField, GivesDnssec, exists_eq_left, Option.some.injEq]
    split_ifs
    · exact eq_comm
    · rw [← hone]
      exact eq_comm
  | null | real | array | object => simp [parseJsonDnssecField, GivesDnssec]

lemma parseJsonCaField_iff :
    parseJsonCaField json uri = some uri' ↔
      ∃ value, GivesText json value ∧ uri' = { uri with certificationAuthority := value } := by
  cases json with
  | string text => simp [parseJsonCaField, GivesText, eq_comm]
  | null | boolean | integer | real | array | object => simp [parseJsonCaField, GivesText]

lemma parseJsonNameField_iff :
    parseJsonNameField json uri = some uri' ↔
      ∃ value, GivesText json value ∧ uri' = { uri with name := value } := by
  cases json with
  | string text => simp [parseJsonNameField, GivesText, eq_comm]
  | null | boolean | integer | real | array | object => simp [parseJsonNameField, GivesText]

/-- The texts of an array are appended to those that are there. -/
lemma parseJsonStringList_iff {list list' : List String} :
    parseJsonStringList json list = some list' ↔
      ∃ value, GivesTexts json value ∧ list' = list ++ value := by
  cases json with
  | array items =>
    simp only [parseJsonStringList, GivesTexts, Json.array.injEq]
    induction items generalizing list with
    | nil => simp [eq_comm]
    | cons item items ih =>
      rw [List.foldlM_cons]
      cases item with
      | string text =>
        rw [Option.bind_eq_bind, Option.bind_some, ih]
        constructor
        · rintro ⟨value, rfl, rfl⟩
          exact ⟨text :: value, rfl, by simp⟩
        · rintro ⟨_ | ⟨text', value⟩, hvalue, rfl⟩
          · cases hvalue
          · obtain ⟨htext, rfl⟩ := List.cons.inj hvalue
            obtain rfl := Json.string.inj htext
            exact ⟨value, rfl, by simp⟩
      | null | boolean | integer | real | array | object =>
        refine iff_of_false (by simp) ?_
        rintro ⟨_ | ⟨text', value⟩, hvalue, -⟩
        · cases hvalue
        · cases (List.cons.inj hvalue).1
  | null | boolean | integer | real | string | object => simp [parseJsonStringList, GivesTexts]

/-- A list of texts that is stored into a server. -/
lemma map_parseJsonStringList_iff (store : List String → ServerUri) :
    (parseJsonStringList json []).map store = some uri' ↔
      ∃ value, GivesTexts json value ∧ uri' = store value := by
  rw [Option.map_eq_some_iff]
  simp only [parseJsonStringList_iff, List.nil_append]
  constructor
  · rintro ⟨value, ⟨_, hvalue, rfl⟩, rfl⟩
    exact ⟨value, hvalue, rfl⟩
  · rintro ⟨value, hvalue, rfl⟩
    exact ⟨value, ⟨value, hvalue, rfl⟩, rfl⟩

lemma parseJsonDomainsField_iff (hdefault : uri.routingDomains = []) :
    parseJsonDomainsField json uri = some uri' ↔
      ∃ value, GivesTexts json value ∧ uri' = { uri with routingDomains := value } := by
  rw [parseJsonDomainsField, hdefault]
  exact map_parseJsonStringList_iff _

lemma parseJsonSearchDomainsField_iff (hdefault : uri.searchDomains = []) :
    parseJsonSearchDomainsField json uri = some uri' ↔
      ∃ value, GivesTexts json value ∧ uri' = { uri with searchDomains := value } := by
  rw [parseJsonSearchDomainsField, hdefault]
  exact map_parseJsonStringList_iff _

/-- The networks of an array are appended to those that are there. -/
lemma parseJsonNetworksField_append_iff :
    parseJsonNetworksField net json uri = some uri' ↔
      ∃ value, GivesNetworks (.parsed net) json value ∧
        uri' = { uri with networks := uri.networks ++ value } := by
  cases json with
  | array items =>
    simp only [parseJsonNetworksField, GivesNetworks, Json.array.injEq]
    induction items generalizing uri with
    | nil =>
      simp [eq_comm]
    | cons item items ih =>
      rw [List.foldlM_cons]
      cases item with
      | string text =>
        rw [Option.bind_eq_bind, Option.bind_eq_some_iff]
        constructor
        · rintro ⟨stored, hstored, hrest⟩
          obtain ⟨network, hnetwork, rfl⟩ := Option.map_eq_some_iff.mp hstored
          obtain ⟨value, ⟨texts, rfl, hvalue⟩, rfl⟩ := ih.mp hrest
          exact ⟨network :: value, ⟨text :: texts, rfl, .cons hnetwork hvalue⟩, by simp⟩
        · rintro ⟨value, ⟨_ | ⟨text', texts⟩, htexts, hvalue⟩, rfl⟩
          · cases htexts
          · obtain ⟨htext, rfl⟩ := List.cons.inj htexts
            obtain rfl := Json.string.inj htext
            obtain ⟨network, value', hnetwork, hrest, rfl⟩ := List.forall₂_cons_left_iff.mp hvalue
            have hstored : storeNetwork net text uri =
                some { uri with networks := uri.networks ++ [network] } :=
              Option.map_eq_some_iff.mpr ⟨network, hnetwork, rfl⟩
            exact ⟨_, hstored, ih.mpr ⟨value', ⟨texts, rfl, hrest⟩, by simp⟩⟩
      | null | boolean | integer | real | array | object =>
        refine iff_of_false (by simp) ?_
        rintro ⟨value, ⟨_ | ⟨text', texts⟩, htexts, -⟩, -⟩
        · cases htexts
        · cases (List.cons.inj htexts).1
  | null | boolean | integer | real | string | object =>
    simp [parseJsonNetworksField, GivesNetworks]

lemma parseJsonNetworksField_iff (hdefault : uri.networks = []) :
    parseJsonNetworksField net json uri = some uri' ↔
      ∃ value, GivesNetworks (.parsed net) json value ∧ uri' = { uri with networks := value } := by
  simp only [parseJsonNetworksField_append_iff, hdefault, List.nil_append]

/-- An optional field, given what its parser stores. -/
lemma parseOptionalField_iff {α : Type} {gives : Json → α → Prop} {default : α}
    {store : α → ServerUri} {object : List (String × Json)}
    {field : String × (Json → ServerUri → Option ServerUri)}
    (hfield : ∀ json uri', field.2 json uri = some uri' ↔
      ∃ value, gives json value ∧ uri' = store value) (hdefault : store default = uri) :
    parseOptionalField object uri field = some uri' ↔
      ∃ value, IsGiven gives default (jsonObjectGet object field.1) value ∧
        uri' = store value := by
  unfold parseOptionalField
  cases jsonObjectGet object field.1 with
  | none => simp [IsGiven, hdefault, eq_comm]
  | some json => exact hfield json uri'

end Fields

/-! ## The parser and the description -/

section Servers

variable {net : Inet} {fields : List (String × Json)} {uri : ServerUri}

/-- The address is the first thing that is read. -/
lemma parseJsonAddressField_iff :
    parseJsonAddressField net (jsonObjectGet fields "address") ServerUri.initial = some uri ↔
      ∃ text address, jsonObjectGet fields "address" = some (.string text) ∧
        parseIpStr net text 0 = some address ∧
        uri = { ServerUri.initial with address := address } := by
  unfold parseJsonAddressField
  split
  · rename_i text hfield
    rw [hfield, Option.map_eq_some_iff]
    constructor
    · rintro ⟨address, haddress, rfl⟩
      exact ⟨text, address, rfl, haddress, rfl⟩
    · rintro ⟨text', address, htext, haddress, rfl⟩
      obtain rfl := Json.string.inj (Option.some.inj htext)
      exact ⟨address, haddress, rfl⟩
  · rename_i hfield
    refine iff_of_false (by simp) ?_
    rintro ⟨text, address, htext, -⟩
    exact hfield text htext

/-- The loop over the optional fields, one field after the other. -/
lemma foldlM_optionalFields_iff {address : SockAddr} :
    (optionalFields net).foldlM (parseOptionalField fields)
        { ServerUri.initial with address := address } = some uri ↔
      IsGiven (GivesPort address) address (jsonObjectGet fields "port") uri.address ∧
        IsGiven (GivesProtocol (.parsed net)) .udp (jsonObjectGet fields "protocol") uri.protocol ∧
        IsGiven GivesPriority 0 (jsonObjectGet fields "priority") uri.priority ∧
        IsGiven GivesInterface "" (jsonObjectGet fields "interface") uri.interface ∧
        IsGiven GivesDnssec 1 (jsonObjectGet fields "dnssec") uri.dnssec ∧
        IsGiven GivesText none (jsonObjectGet fields "ca") uri.certificationAuthority ∧
        IsGiven GivesText none (jsonObjectGet fields "name") uri.name ∧
        IsGiven GivesTexts [] (jsonObjectGet fields "routing_domains") uri.routingDomains ∧
        IsGiven GivesTexts [] (jsonObjectGet fields "search_domains") uri.searchDomains ∧
        IsGiven (GivesNetworks (.parsed net)) [] (jsonObjectGet fields "networks")
          uri.networks := by
  simp only [optionalFields, List.foldlM_cons, List.foldlM_nil, Option.bind_eq_bind,
    Option.pure_def, Option.bind_eq_some_iff, Option.some.injEq]
  constructor
  · rintro ⟨_, h₁, _, h₂, _, h₃, _, h₄, _, h₅, _, h₆, _, h₇, _, h₈, _, h₉, _, h₁₀, rfl⟩
    obtain ⟨_, hport, rfl⟩ :=
      (parseOptionalField_iff (fun _ _ => parseJsonPortField_iff) (by rfl)).mp h₁
    obtain ⟨_, hprotocol, rfl⟩ :=
      (parseOptionalField_iff (fun _ _ => parseJsonProtocolField_iff) (by rfl)).mp h₂
    obtain ⟨_, hpriority, rfl⟩ :=
      (parseOptionalField_iff (fun _ _ => parseJsonPriorityField_iff) (by rfl)).mp h₃
    obtain ⟨_, hinterface, rfl⟩ :=
      (parseOptionalField_iff (fun _ _ => parseJsonInterfaceField_iff) (by rfl)).mp h₄
    obtain ⟨_, hdnssec, rfl⟩ :=
      (parseOptionalField_iff (fun _ _ => parseJsonDnssecField_iff rfl) (by rfl)).mp h₅
    obtain ⟨_, hca, rfl⟩ := (parseOptionalField_iff (fun _ _ => parseJsonCaField_iff) (by rfl)).mp h₆
    obtain ⟨_, hname, rfl⟩ :=
      (parseOptionalField_iff (fun _ _ => parseJsonNameField_iff) (by rfl)).mp h₇
    obtain ⟨_, hdomains, rfl⟩ :=
      (parseOptionalField_iff (fun _ _ => parseJsonDomainsField_iff rfl) (by rfl)).mp h₈
    obtain ⟨_, hsearch, rfl⟩ :=
      (parseOptionalField_iff (fun _ _ => parseJsonSearchDomainsField_iff rfl) (by rfl)).mp h₉
    obtain ⟨_, hnetworks, rfl⟩ :=
      (parseOptionalField_iff (fun _ _ => parseJsonNetworksField_iff rfl) (by rfl)).mp h₁₀
    exact ⟨hport, hprotocol, hpriority, hinterface, hdnssec, hca, hname, hdomains, hsearch,
      hnetworks⟩
  · rintro ⟨hport, hprotocol, hpriority, hinterface, hdnssec, hca, hname, hdomains, hsearch,
      hnetworks⟩
    exact ⟨_, (parseOptionalField_iff (fun _ _ => parseJsonPortField_iff) (by rfl)).mpr ⟨_, hport, rfl⟩,
      _, (parseOptionalField_iff (fun _ _ => parseJsonProtocolField_iff) (by rfl)).mpr
        ⟨_, hprotocol, rfl⟩,
      _, (parseOptionalField_iff (fun _ _ => parseJsonPriorityField_iff) (by rfl)).mpr
        ⟨_, hpriority, rfl⟩,
      _, (parseOptionalField_iff (fun _ _ => parseJsonInterfaceField_iff) (by rfl)).mpr
        ⟨_, hinterface, rfl⟩,
      _, (parseOptionalField_iff (fun _ _ => parseJsonDnssecField_iff rfl) (by rfl)).mpr
        ⟨_, hdnssec, rfl⟩,
      _, (parseOptionalField_iff (fun _ _ => parseJsonCaField_iff) (by rfl)).mpr ⟨_, hca, rfl⟩,
      _, (parseOptionalField_iff (fun _ _ => parseJsonNameField_iff) (by rfl)).mpr ⟨_, hname, rfl⟩,
      _, (parseOptionalField_iff (fun _ _ => parseJsonDomainsField_iff rfl) (by rfl)).mpr
        ⟨_, hdomains, rfl⟩,
      _, (parseOptionalField_iff (fun _ _ => parseJsonSearchDomainsField_iff rfl) (by rfl)).mpr
        ⟨_, hsearch, rfl⟩,
      _, (parseOptionalField_iff (fun _ _ => parseJsonNetworksField_iff rfl) (by rfl)).mpr
        ⟨_, hnetworks, rfl⟩, rfl⟩

/-- An element of the array is accepted exactly if it is an object that describes the server, with
the texts inside of it as the functions for them read them. -/
theorem serverFromJson_iff {value : Json} :
    serverFromJson net value = some uri ↔
      ∃ fields, value = .object fields ∧ DescribesServer (.parsed net) net fields uri := by
  cases value with
  | object fields =>
    simp only [serverFromJson, Option.bind_eq_bind, Option.bind_eq_some_iff,
      parseJsonAddressField_iff, Json.object.injEq, exists_eq_left']
    constructor
    · rintro ⟨_, ⟨text, address, htext, haddress, rfl⟩, hfold⟩
      obtain ⟨hport, hprotocol, hpriority, hinterface, hdnssec, hca, hname, hdomains, hsearch,
        hnetworks⟩ := foldlM_optionalFields_iff.mp hfold
      exact ⟨⟨text, address, htext, haddress, hport⟩, hprotocol, hpriority, hinterface, hdnssec,
        hca, hname, hdomains, hsearch, hnetworks⟩
    · intro h
      obtain ⟨text, address, htext, haddress, hport⟩ := h.address
      refine ⟨_, ⟨text, address, htext, haddress, rfl⟩, foldlM_optionalFields_iff.mpr ?_⟩
      exact ⟨hport, h.protocol, h.priority, h.interface, h.dnssec, h.ca, h.name, h.routingDomains,
        h.searchDomains, h.networks⟩
  | null | boolean | integer | real | string | array => simp [serverFromJson]

/-- The command takes an empty list of servers for an error. -/
lemma parseUpdateCommand_json (lib : TextLibraries) (net : Inet) (text : String) :
    parseUpdateCommand lib net [.json, .arg text] =
      if serverUriListFromJson lib net text = [] then .error "Servers JSON is badly formed"
      else .ok { mode := .backup, json := true,
                 serversUris := serverUriListFromJson lib net text, parsedAsJson := true } := by
  simp only [parseUpdateCommand, List.foldlM_cons, List.foldlM_nil]
  change (if serverUriListFromJson lib net text = [] then _ else _ : Except _ _) >>= _ = _
  split_ifs <;> rfl

/-- The command takes over the servers that a text describes, if there are any. -/
lemma parseUpdateCommand_json_iff {lib : TextLibraries} {text : String}
    {servers : List ServerUri} :
    parseUpdateCommand lib net [.json, .arg text] = .ok
        { mode := .backup, json := true, serversUris := servers, parsedAsJson := true } ↔
      servers ≠ [] ∧ DescribesServers (.parsed net) lib net text servers := by
  have hlist : ∀ servers ≠ [], serverUriListFromJson lib net text = servers ↔
      DescribesServers (.parsed net) lib net text servers := by
    intro servers hne
    unfold serverUriListFromJson DescribesServers
    split
    · rename_i values hloads
      simp only [hloads, Option.some.injEq, Json.array.injEq, exists_eq_left', ← serverFromJson_iff,
        ← mapM_eq_some_iff]
      cases values.mapM (serverFromJson net) with
      | none => simpa using hne.symm
      | some servers' => simp
    · rename_i hloads
      refine iff_of_false hne.symm ?_
      rintro ⟨values, hvalues, -⟩
      exact hloads values hvalues
  rw [parseUpdateCommand_json]
  constructor
  · intro h
    split_ifs at h with hempty
    obtain rfl := congrArg UpdateCommand.serversUris (Except.ok.inj h)
    exact ⟨hempty, (hlist _ hempty).mp rfl⟩
  · rintro ⟨hne, hdescribes⟩
    have hservers := (hlist servers hne).mpr hdescribes
    rw [hservers, if_neg hne]

end Servers

/-! ## Texts that are read too generously -/

/-- No text in the object is a near miss of a protocol, or a network without the length of its
prefix. -/
structure TextsExact (net : Inet) (fields : List (String × Json)) : Prop where
  protocol : ∀ text, jsonObjectGet fields "protocol" = some (.string text) →
    isNearProtocol text = false
  networks : ∀ items text, jsonObjectGet fields "networks" = some (.array items) →
    .string text ∈ items → ¬ LacksLength net text

section Texts

variable {net : Inet}

lemma forall₂_documented_network_iff {texts : List String} {networks : List NetworkAddress} :
    List.Forall₂ (FieldTexts.documented net).network texts networks ↔
      (∀ text ∈ texts, ¬ LacksLength net text) ∧
        List.Forall₂ (FieldTexts.parsed net).network texts networks := by
  rw [← List.forall₂_and_left]
  constructor
  · exact fun h => h.imp fun _ _ => documented_network_iff.mp
  · exact fun h => h.imp fun _ _ => documented_network_iff.mpr

/-- The server that an object is taken for is the one it describes exactly if no text in it is read
too generously. -/
lemma describesServer_documented_iff {fields : List (String × Json)} {uri : ServerUri} :
    DescribesServer (.documented net) net fields uri ↔
      TextsExact net fields ∧ DescribesServer (.parsed net) net fields uri := by
  have hprotocol : IsGiven (GivesProtocol (.documented net)) .udp
      (jsonObjectGet fields "protocol") uri.protocol ↔
      (∀ text, jsonObjectGet fields "protocol" = some (.string text) →
        isNearProtocol text = false) ∧
      IsGiven (GivesProtocol (.parsed net)) .udp (jsonObjectGet fields "protocol")
        uri.protocol := by
    cases jsonObjectGet fields "protocol" with
    | none => simp [IsGiven]
    | some json =>
      simp only [IsGiven, GivesProtocol, documented_protocol_iff]
      constructor
      · rintro ⟨text, rfl, hnear, hread⟩
        refine ⟨fun text' htext => ?_, text, rfl, hread⟩
        rwa [← Json.string.inj (Option.some.inj htext)]
      · rintro ⟨hnear, text, rfl, hread⟩
        exact ⟨text, rfl, hnear text rfl, hread⟩
  have hnetworks : IsGiven (GivesNetworks (.documented net)) []
      (jsonObjectGet fields "networks") uri.networks ↔
      (∀ items text, jsonObjectGet fields "networks" = some (.array items) →
        .string text ∈ items → ¬ LacksLength net text) ∧
      IsGiven (GivesNetworks (.parsed net)) [] (jsonObjectGet fields "networks")
        uri.networks := by
    cases jsonObjectGet fields "networks" with
    | none => simp [IsGiven]
    | some json =>
      have hmem : ∀ (texts : List String) (text : String),
          Json.string text ∈ texts.map Json.string ↔ text ∈ texts := fun texts text =>
        List.mem_map_of_injective fun _ _ => Json.string.inj
      simp only [IsGiven, GivesNetworks, forall₂_documented_network_iff]
      constructor
      · rintro ⟨texts, rfl, hlength, hread⟩
        refine ⟨fun items text hitems htext => ?_, texts, rfl, hread⟩
        rw [← Json.array.inj (Option.some.inj hitems), hmem] at htext
        exact hlength text htext
      · rintro ⟨hlength, texts, rfl, hread⟩
        exact ⟨texts, rfl, fun text htext => hlength _ text rfl ((hmem texts text).mpr htext),
          hread⟩
  constructor
  · intro h
    obtain ⟨hnear, hprotocol'⟩ := hprotocol.mp h.protocol
    obtain ⟨hlength, hnetworks'⟩ := hnetworks.mp h.networks
    exact ⟨⟨hnear, hlength⟩, h.address, hprotocol', h.priority, h.interface, h.dnssec, h.ca, h.name,
      h.routingDomains, h.searchDomains, hnetworks'⟩
  · rintro ⟨hexact, h⟩
    exact ⟨h.address, hprotocol.mpr ⟨hexact.protocol, h.protocol⟩, h.priority, h.interface,
      h.dnssec, h.ca, h.name, h.routingDomains, h.searchDomains,
      hnetworks.mpr ⟨hexact.networks, h.networks⟩⟩

/-- The same for all servers of a text. -/
lemma describesServers_documented_iff {lib : TextLibraries} {text : String} {values : List Json}
    (hloads : lib.jsonLoads text = some (.array values)) {servers : List ServerUri} :
    DescribesServers (.documented net) lib net text servers ↔
      (∀ fields, .object fields ∈ values → TextsExact net fields) ∧
        DescribesServers (.parsed net) lib net text servers := by
  have hone : ∀ value uri, (∃ fields, value = Json.object fields ∧
      DescribesServer (.documented net) net fields uri) ↔
      (∀ fields, value = .object fields → TextsExact net fields) ∧
        ∃ fields, value = .object fields ∧ DescribesServer (.parsed net) net fields uri := by
    intro value uri
    simp only [describesServer_documented_iff]
    constructor
    · rintro ⟨fields, rfl, hexact, h⟩
      refine ⟨fun fields' hfields => ?_, fields, rfl, h⟩
      rwa [← Json.object.inj hfields]
    · rintro ⟨hexact, fields, rfl, h⟩
      exact ⟨fields, rfl, hexact fields rfl, h⟩
  simp only [DescribesServers, hloads, Option.some.injEq, Json.array.injEq, exists_eq_left', hone,
    List.forall₂_and_left]
  refine and_congr_left fun _ => ?_
  constructor
  · intro h fields hfields
    exact h _ hfields fields rfl
  · rintro h value hvalue fields rfl
    exact h fields hvalue

end Texts

/-! ## The result -/

/-- The command accepts a text exactly if it describes servers, and takes over exactly these. -/
def JsonUpdateExact (lib : TextLibraries) (net : Inet) (text : String) : Prop :=
  ∀ servers, parseUpdateCommand lib net [.json, .arg text] = .ok
      { mode := .backup, json := true, serversUris := servers, parsedAsJson := true } ↔
    DescribesServers (.documented net) lib net text servers

/-- A text that describes servers is what the command is given, if it is no empty array. -/
lemma DescribesServers.ne_nil {texts : FieldTexts} {lib : TextLibraries} {net : Inet} {text : String}
    {values : List Json} {servers : List ServerUri} (h : DescribesServers texts lib net text servers)
    (hloads : lib.jsonLoads text = some (.array values)) (hne : values ≠ []) : servers ≠ [] := by
  obtain ⟨values', hloads', hvalues⟩ := h
  rw [hloads] at hloads'
  obtain rfl := Json.array.inj (Option.some.inj hloads')
  rintro rfl
  exact hne (List.forall₂_nil_right_iff.mp hvalues)

/-- Updates given as JSON.  The command accepts exactly the texts that describe servers, with
exactly these servers, if and only if the text is not the empty array and, in case it would describe
servers if the last letter of a protocol did not matter and a missing length of a prefix were 0, it has
no such protocol and no such network in its objects. -/
theorem json_update_exact_iff (lib : TextLibraries) (net : Inet) (text : String) :
    JsonUpdateExact lib net text ↔
      ∀ values, lib.jsonLoads text = some (.array values) →
        values ≠ [] ∧ ((∃ servers, DescribesServers (.lenient net) lib net text servers) →
          ∀ fields, .object fields ∈ values → TextsExact net fields) := by
  rw [lenient_eq_parsed]
  constructor
  · intro hexact values hloads
    have hne : values ≠ [] := by
      rintro rfl
      -- no servers are described, but an empty list is an error
      have hdescribed : DescribesServers (.documented net) lib net text [] := ⟨[], hloads, .nil⟩
      exact (parseUpdateCommand_json_iff.mp ((hexact []).mpr hdescribed)).1 rfl
    refine ⟨hne, ?_⟩
    rintro ⟨servers, hparsed⟩
    have hok := parseUpdateCommand_json_iff.mpr ⟨hparsed.ne_nil hloads hne, hparsed⟩
    exact ((describesServers_documented_iff hloads).mp ((hexact servers).mp hok)).1
  · intro hcondition servers
    rw [parseUpdateCommand_json_iff]
    constructor
    · rintro ⟨-, hparsed⟩
      obtain ⟨values, hloads, -⟩ := id hparsed
      have hexact := (hcondition values hloads).2 ⟨servers, hparsed⟩
      exact (describesServers_documented_iff hloads).mpr ⟨hexact, hparsed⟩
    · intro hdescribed
      obtain ⟨values, hloads, -⟩ := id hdescribed
      exact ⟨hdescribed.ne_nil hloads (hcondition values hloads).1,
        ((describesServers_documented_iff hloads).mp hdescribed).2⟩

/-- Libraries for which every text is the empty array of JSON. -/
def TextLibraries.emptyArray : TextLibraries where
  jsonLoads _ := some (.array [])
  uriParseSingleUri _ := none
  uriDissectQuery _ := none

/-- The empty array describes no servers and is rejected. -/
theorem json_update_rejects_empty :
    parseUpdateCommand .emptyArray .documentation [.json, .arg "[]"] =
        .error "Servers JSON is badly formed" ∧
      DescribesServers (.documented .documentation) .emptyArray .documentation "[]" [] ∧
      ¬ JsonUpdateExact .emptyArray .documentation "[]" := by
  have hdescribed : DescribesServers (.documented .documentation) .emptyArray .documentation "[]" [] :=
    ⟨[], rfl, .nil⟩
  refine ⟨rfl, hdescribed, fun hexact => ?_⟩
  cases (hexact []).mpr hdescribed

end Dnsconfd
