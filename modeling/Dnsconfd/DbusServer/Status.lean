import Dnsconfd.Client.JsonUpdate
import Dnsconfd.Client.Update
import Dnsconfd.DbusServer.Applied
import Dnsconfd.DbusServer.CacheAgreement
import Dnsconfd.DbusServer.ServersWellFormed

/-!
# The reply to a Status call

`handle_status_call` reports the mode, the state, all servers and the table that is recorded for
the cache, as JSON.  Three things are said about the reply.  Its servers can be given to
`dnsconfd update --json` again only if each has a name and an interface, because the writer has
`null` for what is missing and the reader wants it left out (`status_servers_as_update`).  While the
daemon is running, the reply is consistent in itself: `cache_config` is what its mode selects from
its servers (`status_running_consistent`).  And it is the truth about the cache: the URIs of a domain
say where the cache forwards it (`status_tells_forwarding`).

The texts around the JSON values are jansson's.  A text is valid UTF-8, so `json_string` does not
fail.
-/

namespace Dnsconfd

open Library

/-! ## The reply -/

/-- `dnsconfd_mode_t_to_string`. -/
def Mode.toText : Mode → String
  | backup => "backup"
  | prefer => "prefer"
  | exclusive => "exclusive"

/-- `fsm_state_t_to_string`. -/
def FsmState.toText : FsmState → String
  | starting => "STARTING"
  | configuringDnsManager => "CONFIGURING_DNS_MANAGER"
  | submittingStartJob => "SUBMITTING_START_JOB"
  | waitingForStartJob => "WAITING_FOR_START_JOB"
  | settingResolvConf => "SETTING_RESOLV_CONF"
  | updatingDnsManager => "UPDATING_DNS_MANAGER"
  | running => "RUNNING"
  | revertingResolvConf => "REVERTING_RESOLV_CONF"
  | submittingStopJob => "SUBMITTING_STOP_JOB"
  | waitingStopJob => "WAITING_STOP_JOB"
  | stopping => "STOPPING"

/-- The URI of a server in `construct_cache_config_status`.  The port is left out if it is the usual
one, and only a server that uses TLS has its name behind it.  For an address of no known family the
code would print what happens to be in the buffer; no server has one. -/
def cacheServerUri (net : Inet) (curServer : ServerUri) : String :=
  let addrStr := (ipToStr net curServer.address).getD ""
  let port := curServer.address.port
  let uriStr :=
    match curServer.address with
    | .inet _ _ => curServer.protocol.toText ++ "://" ++ addrStr
    | _ => curServer.protocol.toText ++ "://[" ++ addrStr ++ "]"
  if curServer.protocol = .tls then
    let uriStr := if port ≠ 853 then uriStr ++ (":" ++ toString port.toNat) else uriStr
    match curServer.name with
    | some name => uriStr ++ ("#" ++ name)
    | none => uriStr
  else if port ≠ 53 then uriStr ++ (":" ++ toString port.toNat)
  else uriStr

/-- `construct_cache_config_status`, with the order in which the table is visited. -/
def constructCacheConfigStatus (net : Inet) (order : Enumeration ServerEntry)
    (currentUnboundDomainToServers : Option ServerTable) : Json :=
  match currentUnboundDomainToServers with
  | some table =>
    .object ((order.visit table.entries).map fun entry =>
      (entry.1, .array (entry.2.map fun server => .string (cacheServerUri net server))))
  | none => .object []

/-- The fields that `server_uri_to_json` sets, in order. -/
def serverFields (net : Inet) (server : ServerUri) : List (String × Json) :=
  [("address", .string ((ipToStr net server.address).getD "")),
    ("port", .integer server.address.port.toNat),
    ("name", match server.name with
      | some name => .string name
      | none => .null),
    ("routing_domains", .array (server.routingDomains.map .string)),
    ("search_domains", .array (server.searchDomains.map .string)),
    ("interface", if server.interface ≠ "" then .string server.interface else .null),
    ("priority", .integer server.priority.toInt),
    ("protocol", .string server.protocol.toText),
    ("dnssec", .boolean (server.dnssec ≠ 0)),
    ("networks", .array (server.networks.map fun network =>
      .string (networkAddressToString net network)))]

/-- `server_uri_to_json`. -/
def serverUriToJson (net : Inet) (server : ServerUri) : Json :=
  .object (serverFields net server)

/-- `config_to_json`. -/
def configToJson (net : Inet) (order : Enumeration ServerEntry) (ctx : Context) : Json :=
  .object
    [("service", .string "unbound"), ("mode", .string ctx.resolutionMode.toText),
      ("cache_config", constructCacheConfigStatus net order ctx.currentUnboundDomainToServers),
      ("state", .string ctx.currentState.toText),
      ("servers", .array (ctx.allServers.map (serverUriToJson net)))]

/-! ## Looking fields up -/

/-- In an object without repeated keys a field is found exactly if it is there. -/
lemma jsonObjectGet_eq_some_iff {fields : List (String × Json)}
    (hkeys : (fields.map Prod.fst).Nodup) {key : String} {value : Json} :
    jsonObjectGet fields key = some value ↔ (key, value) ∈ fields := by
  induction fields generalizing value with
  | nil => simp [jsonObjectGet]
  | cons field fields ih =>
    obtain ⟨k, v⟩ := field
    obtain ⟨hnot, hrest⟩ := List.nodup_cons.mp hkeys
    rw [jsonObjectGet, Option.or_eq_some_iff, ih hrest, List.mem_cons]
    by_cases hk : k = key
    · subst hk
      have hnone : jsonObjectGet fields k = none := by
        refine Option.eq_none_iff_forall_not_mem.mpr fun w hw => hnot ?_
        exact List.mem_map.mpr ⟨_, (ih hrest).mp hw, rfl⟩
      have habsent : (k, value) ∉ fields := fun hmem => hnot (List.mem_map.mpr ⟨_, hmem, rfl⟩)
      simp [hnone, habsent, eq_comm]
    · simp [hk, Ne.symm hk]

/-- A field is not `null`. -/
def Json.isSet : Json → Bool
  | null => false
  | _ => true

/-- Looking up a field that is not `null`. -/
lemma jsonObjectGet_filter_isSet {fields : List (String × Json)}
    (hkeys : (fields.map Prod.fst).Nodup) (key : String) :
    jsonObjectGet (fields.filter fun field => field.2.isSet) key =
      (jsonObjectGet fields key).filter Json.isSet := by
  have hkeys' : ((fields.filter fun field => field.2.isSet).map Prod.fst).Nodup :=
    hkeys.sublist (List.filter_sublist.map _)
  refine Option.ext fun value => ?_
  rw [jsonObjectGet_eq_some_iff hkeys', List.mem_filter, Option.filter_eq_some_iff,
    jsonObjectGet_eq_some_iff hkeys]

/-! ## The servers as an update -/

/-- A server without the file of its certification authority, which the reply does not have. -/
def ServerUri.withoutCa (server : ServerUri) : ServerUri :=
  { server with certificationAuthority := none }

/-- An object with the fields left out that are `null`. -/
def Json.withoutNulls : Json → Json
  | object fields => object (fields.filter fun field => field.2.isSet)
  | json => json

lemma nodup_serverFields (net : Inet) (s : ServerUri) :
    ((serverFields net s).map Prod.fst).Nodup := by
  simp [serverFields]

/-- The fields of a server that are not `null` describe it. -/
lemma describesServer_serverFields {net : Inet} (hnet : net.Lawful) {s : ServerUri}
    (hs : IsParsed s) :
    DescribesServer (.parsed net) net ((serverFields net s).filter fun field => field.2.isSet)
      s.withoutCa := by
  obtain ⟨text, htext, hparse⟩ := parseIpStr_ipToStr hnet hs.address
  have hget := jsonObjectGet_filter_isSet (nodup_serverFields net s)
  have hnetworks : List.Forall₂ (FieldTexts.parsed net).network
      (s.networks.map (networkAddressToString net)) s.networks := by
    rw [List.forall₂_map_left_iff, List.forall₂_same]
    exact fun network hmem => networkAddressFromString_toString hnet (hs.networks network hmem)
  refine ⟨⟨text, s.address.withPort 0, ?_, hparse 0, ?_⟩, ?_, ?_, ?_, ?_, ?_, ?_, ?_, ?_, ?_⟩
  all_goals rw [hget]
  · simp [serverFields, jsonObjectGet, htext, Json.isSet]
  · refine ⟨s.address.port, rfl, ?_⟩
    change s.address = _
    cases s.address <;> rfl
  · exact ⟨_, rfl, hs.protocol, protocolFromNstring_toText hs.protocol⟩
  · exact rfl
  · change IsGiven _ _ (some (if s.interface ≠ "" then Json.string s.interface else .null)
      |>.filter Json.isSet) s.interface
    by_cases hinterface : s.interface = ""
    · rw [if_neg (not_not.mpr hinterface)]
      exact hinterface
    · rw [if_pos hinterface]
      exact ⟨rfl, hs.interface⟩
  · change s.dnssec = if decide (s.dnssec ≠ 0) = true then 1 else 0
    rcases hs.dnssec with hdnssec | hdnssec <;> rw [hdnssec] <;> rfl
  · exact rfl
  · change IsGiven _ _ (some (match s.name with
      | some name => Json.string name
      | none => .null) |>.filter Json.isSet) s.name
    cases s.name with
    | none => exact rfl
    | some name => exact ⟨name, rfl, rfl⟩
  · exact rfl
  · exact rfl
  · refine ⟨s.networks.map (networkAddressToString net), ?_, hnetworks⟩
    rw [List.map_map]
    rfl

/-- The fields of a server that are not `null` are read back as the server, without its CA. -/
lemma serverFromJson_withoutNulls {net : Inet} (hnet : net.Lawful) {s : ServerUri}
    (hs : IsParsed s) :
    serverFromJson net (serverUriToJson net s).withoutNulls = some s.withoutCa :=
  serverFromJson_iff.mpr ⟨_, rfl, describesServer_serverFields hnet hs⟩

/-- Nothing is `null` if the server has a name and an interface. -/
def ServerUri.isComplete (s : ServerUri) : Bool :=
  s.name.isSome && s.interface ≠ ""

/-- A server is read back if nothing in its object is `null`. -/
lemma serverFromJson_serverUriToJson {net : Inet} (hnet : net.Lawful) {s : ServerUri}
    (hs : IsParsed s) :
    serverFromJson net (serverUriToJson net s) =
      if s.isComplete then some s.withoutCa else none := by
  split_ifs with hcomplete
  · rw [← serverFromJson_withoutNulls hnet hs]
    simp only [ServerUri.isComplete, Bool.and_eq_true, decide_eq_true_eq] at hcomplete
    obtain ⟨name, hname⟩ := Option.isSome_iff_exists.mp hcomplete.1
    simp [serverUriToJson, Json.withoutNulls, serverFields, hname, hcomplete.2, Json.isSet]
  · refine Option.eq_none_iff_forall_not_mem.mpr fun t ht => hcomplete ?_
    obtain ⟨fields, hfields, hdescribes⟩ := serverFromJson_iff.mp ht
    obtain rfl := Json.object.inj hfields
    have hname : ∃ text, (match s.name with
        | some name => Json.string name
        | none => .null) = .string text ∧ t.name = some text := hdescribes.name
    have hinterface : (if s.interface ≠ "" then Json.string s.interface else .null) =
        .string t.interface ∧ t.interface.utf8ByteSize < ifNamSiz := hdescribes.interface
    obtain ⟨text, htext, -⟩ := hname
    rw [ServerUri.isComplete, Bool.and_eq_true, decide_eq_true_eq]
    constructor
    · cases hs' : s.name with
      | none => rw [hs'] at htext; cases htext
      | some name => rfl
    · intro hempty
      rw [if_neg (not_not.mpr hempty)] at hinterface
      cases hinterface.1

/-- The servers of a Status reply, given to `dnsconfd update --json`, are accepted if there are any and
all of them have a name and an interface, and are the servers again without their certification
authorities; otherwise the text is rejected. -/
theorem status_servers_as_update (lib : TextLibraries) (net : Inet) (hnet : net.Lawful)
    (servers : List ServerUri) (hservers : ∀ s ∈ servers, IsParsed s) (text : String)
    (htext : lib.jsonLoads text = some (.array (servers.map (serverUriToJson net)))) :
    parseUpdateCommand lib net [.json, .arg text] =
      if servers ≠ [] ∧ servers.all ServerUri.isComplete = true then
        .ok { mode := .backup, json := true, serversUris := servers.map ServerUri.withoutCa,
              parsedAsJson := true }
      else .error "Servers JSON is badly formed" := by
  have hmap : ∀ servers : List ServerUri, (∀ s ∈ servers, IsParsed s) →
      (servers.map (serverUriToJson net)).mapM (serverFromJson net) =
        if servers.all ServerUri.isComplete then some (servers.map ServerUri.withoutCa)
        else none := by
    intro servers hservers
    induction servers with
    | nil => rfl
    | cons s servers ih =>
      have hrest := ih fun s' hs' => hservers s' (List.mem_cons_of_mem _ hs')
      rw [List.map_cons, List.mapM_cons, hrest,
        serverFromJson_serverUriToJson hnet (hservers s List.mem_cons_self), List.all_cons]
      cases s.isComplete <;> cases servers.all ServerUri.isComplete <;> rfl
  have hlist : serverUriListFromJson lib net text =
      if servers.all ServerUri.isComplete then servers.map ServerUri.withoutCa else [] := by
    unfold serverUriListFromJson
    rw [htext]
    dsimp only
    rw [hmap servers hservers]
    split_ifs <;> rfl
  rw [parseUpdateCommand_json, hlist]
  by_cases hcomplete : servers.all ServerUri.isComplete = true
  · rw [if_pos hcomplete]
    by_cases hempty : servers = []
    · rw [if_pos (List.map_eq_nil_iff.mpr hempty), if_neg fun h => h.1 hempty]
    · rw [if_neg fun h => hempty (List.map_eq_nil_iff.mp h), if_pos ⟨hempty, hcomplete⟩]
  · rw [if_neg hcomplete, if_pos rfl, if_neg fun h => hcomplete h.2]

/-- A server with a name and an interface. -/
def namedServer : ServerUri :=
  { ServerUri.initial with
    address := .inet documentationAddress 853
    protocol := .tls
    interface := "eth0"
    name := some "dns.example"
    certificationAuthority := some "/etc/ca.pem"
    routingDomains := ["."] }

/-- The same server without them. -/
def unnamedServer : ServerUri :=
  { namedServer with
    name := none
    interface := "" }

/-- What jansson makes of the servers of a reply. -/
def TextLibraries.ofServers (servers : List ServerUri) : TextLibraries :=
  { TextLibraries.plain with
    jsonLoads := fun _ => some (.array (servers.map (serverUriToJson .dotted))) }

/-- A server with a name and an interface comes back; with another one that has neither it does
not. -/
theorem status_servers_as_update_named :
    parseUpdateCommand (.ofServers [namedServer]) .dotted [.json, .arg ""] =
        .ok { mode := .backup, json := true, serversUris := [namedServer.withoutCa],
              parsedAsJson := true } ∧
      parseUpdateCommand (.ofServers [namedServer, unnamedServer]) .dotted [.json, .arg ""] =
        .error "Servers JSON is badly formed" := by
  have hnamed : IsParsed namedServer :=
    ⟨rfl, by decide, Or.inr rfl, by decide, by simp [namedServer, ServerUri.initial]⟩
  have hunnamed : IsParsed unnamedServer :=
    ⟨rfl, by decide, Or.inr rfl, by decide, hnamed.networks⟩
  constructor
  · exact status_servers_as_update (.ofServers [namedServer]) .dotted lawful_dotted [namedServer]
      (by simpa using hnamed) "" rfl
  · exact status_servers_as_update (.ofServers [namedServer, unnamedServer]) .dotted lawful_dotted
      [namedServer, unnamedServer] (by simpa using ⟨hnamed, hunnamed⟩) "" rfl

/-! ## Reading the reply -/

/-- A string. -/
def Json.asString : Json → Option String
  | string text => some text
  | _ => none

/-- An array of strings. -/
def Json.asStrings : Json → Option (List String)
  | array values => values.mapM asString
  | _ => none

/-- The mode with a given name. -/
def Mode.ofText (text : String) : Option Mode :=
  [backup, prefer, exclusive].find? fun mode => mode.toText = text

/-- The state with a given name. -/
def FsmState.ofText (text : String) : Option FsmState :=
  [starting, configuringDnsManager, submittingStartJob, waitingForStartJob, settingResolvConf,
    updatingDnsManager, running, revertingResolvConf, submittingStopJob, waitingStopJob,
    stopping].find? fun state => state.toText = text

/-- What a reply says: the mode, the state, the URIs of every domain in the cache, and the
servers. -/
structure StatusView where
  mode : Mode
  state : FsmState
  cacheConfig : String → Option (List String)
  servers : List ServerUri

/-- The objects of the servers, read with `null` for a field that is not there. -/
def readServers (net : Inet) : Json → Option (List ServerUri)
  | .array values => values.mapM fun value => serverFromJson net value.withoutNulls
  | _ => none

/-- The URIs of a domain. -/
def readCacheConfig : Json → Option (String → Option (List String))
  | .object fields => some fun domain => (jsonObjectGet fields domain).bind Json.asStrings
  | _ => none

/-- The reply as somebody reads it who knows nothing but the names of the fields. -/
def readStatus (net : Inet) : Json → Option StatusView
  | .object fields => do
    let mode ← ((jsonObjectGet fields "mode").bind Json.asString).bind Mode.ofText
    let state ← ((jsonObjectGet fields "state").bind Json.asString).bind FsmState.ofText
    let cacheConfig ← (jsonObjectGet fields "cache_config").bind readCacheConfig
    let servers ← (jsonObjectGet fields "servers").bind (readServers net)
    some ⟨mode, state, cacheConfig, servers⟩
  | _ => none

lemma Mode.ofText_toText (mode : Mode) : ofText mode.toText = some mode := by
  cases mode <;> decide

lemma FsmState.ofText_toText (state : FsmState) : ofText state.toText = some state := by
  cases state <;> decide

/-- The servers of a reply are read back without their certification authorities. -/
lemma readServers_map {net : Inet} (hnet : net.Lawful) {servers : List ServerUri}
    (hservers : ∀ s ∈ servers, IsParsed s) :
    readServers net (.array (servers.map (serverUriToJson net))) =
      some (servers.map ServerUri.withoutCa) := by
  change (servers.map (serverUriToJson net)).mapM
    (fun value => serverFromJson net value.withoutNulls) = _
  induction servers with
  | nil => rfl
  | cons s servers ih =>
    rw [List.map_cons, List.mapM_cons,
      serverFromJson_withoutNulls hnet (hservers s List.mem_cons_self),
      ih fun s' hs' => hservers s' (List.mem_cons_of_mem _ hs')]
    rfl

/-- The URIs of a domain are those of the servers recorded for it, whatever the order of the
domains in the reply. -/
lemma readCacheConfig_eq (net : Inet) (order : Enumeration ServerEntry) (ctx : Context) :
    readCacheConfig (constructCacheConfigStatus net order ctx.currentUnboundDomainToServers) =
      some fun domain => (recordedServers ctx domain).map fun servers =>
        servers.map (cacheServerUri net) := by
  unfold recordedServers
  cases ctx.currentUnboundDomainToServers with
  | none => rfl
  | some table =>
    refine congrArg some (funext fun domain => ?_)
    have hkeys : (((order.visit table.entries).map fun entry => (entry.1,
        Json.array (entry.2.map fun server => .string (cacheServerUri net server)))).map
          Prod.fst).Nodup := by
      rw [List.map_map]
      exact Table.nodupKeys_visit order table
    have hlookup : jsonObjectGet ((order.visit table.entries).map fun entry => (entry.1,
        Json.array (entry.2.map fun server => .string (cacheServerUri net server)))) domain =
        (table.lookup domain).map fun servers =>
          .array (servers.map fun server => .string (cacheServerUri net server)) := by
      refine Option.ext fun value => ?_
      rw [jsonObjectGet_eq_some_iff hkeys, List.mem_map, Option.map_eq_some_iff]
      constructor
      · rintro ⟨⟨domain', servers⟩, hmem, heq⟩
        obtain ⟨rfl, rfl⟩ := Prod.mk.inj heq
        exact ⟨servers, (Table.mem_visit_iff_lookup order table).mp hmem, rfl⟩
      · rintro ⟨servers, hlookup, rfl⟩
        exact ⟨⟨domain, servers⟩, (Table.mem_visit_iff_lookup order table).mpr hlookup, rfl⟩
    have hstrings : ∀ servers : List ServerUri,
        (Json.array (servers.map fun server => .string (cacheServerUri net server))).asStrings =
          some (servers.map (cacheServerUri net)) := by
      intro servers
      change (servers.map fun server => Json.string (cacheServerUri net server)).mapM
        Json.asString = _
      induction servers with
      | nil => rfl
      | cons s servers ih =>
        rw [List.map_cons, List.mapM_cons, ih]
        rfl
    rw [hlookup, Option.bind_map]
    change (table.lookup domain).bind (fun servers => _) = (table.lookup domain).map _
    cases table.lookup domain with
    | none => rfl
    | some servers => exact hstrings servers

/-- The reply can be read in every state. -/
lemma readStatus_configToJson {net : Inet} (hnet : net.Lawful) (order : Enumeration ServerEntry)
    {ctx : Context} (hall : ∀ s ∈ ctx.allServers, IsParsed s) :
    readStatus net (configToJson net order ctx) = some
      { mode := ctx.resolutionMode
        state := ctx.currentState
        cacheConfig := fun domain => (recordedServers ctx domain).map fun servers =>
          servers.map (cacheServerUri net)
        servers := ctx.allServers.map ServerUri.withoutCa } := by
  change (Mode.ofText ctx.resolutionMode.toText).bind (fun mode =>
    (FsmState.ofText ctx.currentState.toText).bind fun state =>
      (readCacheConfig (constructCacheConfigStatus net order
        ctx.currentUnboundDomainToServers)).bind fun cacheConfig =>
        (readServers net (.array (ctx.allServers.map (serverUriToJson net)))).bind fun servers =>
          some (StatusView.mk mode state cacheConfig servers)) = _
  rw [Mode.ofText_toText, FsmState.ofText_toText, readCacheConfig_eq, readServers_map hnet hall]
  rfl

/-! ## The servers without their certification authorities -/

/-- `g_list_sort` looks at the elements through the comparison only. -/
def Platform.SortsByComparison (p : Platform) : Prop :=
  ∀ (f : ServerUri → ServerUri) (compare : ServerUri → ServerUri → Int32)
    (servers : List ServerUri), (∀ a b, compare (f a) (f b) = compare a b) →
    p.gListSort compare (servers.map f) = (p.gListSort compare servers).map f

/-- The groups of servers do not depend on the certification authorities. -/
lemma serversFor_map_withoutCa (domain : String) (servers : List ServerUri) :
    serversFor domain (servers.map ServerUri.withoutCa) =
      (serversFor domain servers).map ServerUri.withoutCa := by
  unfold serversFor
  rw [List.flatMap_map, List.map_flatMap]
  refine List.flatMap_congr fun s _ => ?_
  rw [List.map_replicate]
  rfl

/-- The table of the servers without their certification authorities. -/
lemma lookup_map_withoutCa {p : Platform} (hsort : p.SortsByComparison) {servers : List ServerUri}
    {table table' : ServerTable} (h : serverListToHashTable p servers = some table)
    (h' : serverListToHashTable p (servers.map ServerUri.withoutCa) = some table')
    (domain : String) :
    table'.lookup domain =
      (table.lookup domain).map fun group => group.map ServerUri.withoutCa := by
  rw [lookup_serverListToHashTable h', lookup_serverListToHashTable h, serversFor_map_withoutCa]
  unfold storedList
  by_cases hnil : serversFor domain servers = []
  · simp [hnil]
  · have hmap : (serversFor domain servers).map ServerUri.withoutCa ≠ [] := by simpa using hnil
    rw [if_neg hmap, if_neg hnil]
    exact congrArg some (hsort _ _ _ fun _ _ => rfl)

/-- The choice among servers does not depend on the certification authorities. -/
lemma getUsedServers_map_withoutCa (servers : List ServerUri) (mode : Mode) (domain : String) :
    getUsedServers (servers.map ServerUri.withoutCa) mode domain =
      (getUsedServers servers mode domain).map ServerUri.withoutCa := by
  have hloop : ∀ (first : ServerUri) (servers used : List ServerUri),
      usedServersLoop first.priority first.protocol first.dnssec mode domain
          (servers.map ServerUri.withoutCa) (used.map ServerUri.withoutCa) =
        (usedServersLoop first.priority first.protocol first.dnssec mode domain servers used).map
          ServerUri.withoutCa := by
    intro first servers
    induction servers with
    | nil => exact fun _ => rfl
    | cons s servers ih =>
      intro used
      have hskip : skippedInMode mode domain s.withoutCa = skippedInMode mode domain s := rfl
      rw [List.map_cons, usedServersLoop, usedServersLoop, hskip]
      change (if s.priority < first.priority || s.protocol.toNat < first.protocol.toNat ||
        s.dnssec ≠ first.dnssec then _ else _) = _
      split_ifs
      · rfl
      · exact ih used
      · exact ih (s :: used)
  cases servers with
  | nil => rfl
  | cons first rest => exact hloop first (first :: rest) []

/-! ## The reply of a running daemon -/

variable {p : Platform} {config : Config}

/-- From the first kickoff on all servers are the static ones and the dynamic ones in use. -/
def Joined (config : Config) (ctx : Context) : Prop :=
  ctx.currentState.isConfigured = true →
    ctx.allServers = config.staticServers ++ ctx.currentDynamicServers

/-- All servers are joined again by every edge that changes the dynamic ones. -/
lemma Joined.edge {o : Outcomes} {ctx : Context} {event : FsmEvent} {r : ActionResult}
    (h : Joined config ctx) (hedge : Edge p config o ctx event r) : Joined config r.ctx := by
  intro hconfigured
  have hfields := hedge.serverFields
  have hsame : ctx.currentState.isConfigured = true →
      r.ctx.allServers = config.staticServers ++ r.ctx.currentDynamicServers := by
    intro hbefore
    rcases hfields with heq | heq | heq
    · have hall : r.ctx.allServers = ctx.allServers := congrArg ServerFields.all heq
      have hcurrent : r.ctx.currentDynamicServers = ctx.currentDynamicServers :=
        congrArg ServerFields.current heq
      rw [hall, hcurrent]
      exact h hbefore
    all_goals
      have hall := congrArg ServerFields.all heq
      have hcurrent := congrArg ServerFields.current heq
      exact hall.trans (congrArg (config.staticServers ++ ·) hcurrent.symm)
  cases hedge with
  | refresh hs => rfl
  | kickoff hs hn =>
    rw [fsmStartingEventKickoff_ctx]
    rfl
  | ignored hs => exact h hconfigured
  | startJob hs | startJobSubmitted hs | startJobDone hs | updateRunning hs | resolvConfSet hs
  | updated hs => exact hsame (by rw [hs]; rfl)
  | abandon hs | startJobFailed hs | resolvConfFailed hs | updateFailed hs | stopRunning hs
  | stopJob hs | stopJobSubmitted hs => cases hconfigured
  | quit hs =>
    rw [hs] at hconfigured
    cases hconfigured

/-- All servers are joined after every run. -/
lemma joined_run (is : List Input) : Joined config ((daemon p config).run is).ctx := by
  have hinitial : Joined config Daemon.initial.ctx := fun h => absurd h (by decide)
  refine invariant_of_micro_true (p := p) (d := .initial) (J := fun a => Joined config a.ctx) ?_
    hinitial is
  intro a b h hstep
  cases hstep with
  | edge hok hedge => exact h.edge hedge
  | receive | parsed | refused | skipped | replied | rejected | reloadReplied | nameLost => exact h

/-- The reply of a running daemon is consistent: it has the mode of the last Update and all servers
of the configuration and of the last Update, and its `cache_config` has the URIs of exactly those
servers that the mode selects, for every domain, from the servers in the reply. -/
theorem status_running_consistent (p : Platform) (hnet : p.inet.Lawful)
    (hsort : p.SortsByComparison) (config : Config)
    (hstatic : ∀ s ∈ config.staticServers, s.WellFormed) (is : List Input)
    (hrunning : ((daemon p config).run is).ctx.currentState = .running)
    (order : Enumeration ServerEntry) :
    let d := (daemon p config).run is
    ∃ view table, readStatus p.inet (configToJson p.inet order d.ctx) = some view ∧
      view.mode = (lastUpdate d.log).2 ∧
      view.servers = (config.staticServers ++ (lastUpdate d.log).1).map ServerUri.withoutCa ∧
      serverListToHashTable p view.servers = some table ∧
      ∀ domain uris, view.cacheConfig domain = some uris ↔
        ∃ servers, table.lookup domain = some servers ∧
          (getUsedServers servers view.mode domain).map (cacheServerUri p.inet) = uris ∧
          uris ≠ [] := by
  intro d
  have hwell : HoldsWellFormed p d.ctx.serverFields := (holdsWellFormed_run hstatic is).2
  have hparsed : ∀ s ∈ d.ctx.allServers, IsParsed s := fun s hs => (hwell.all s hs).toIsParsed
  have happ : AppliedIn p config (lastUpdate d.log).1 (lastUpdate d.log).2 d.ctx .none :=
    (applied_run is).1
  have hlive : d.ctx.currentState.isLive = true := by rw [hrunning]; rfl
  obtain ⟨-, table, order', htable, hrecorded⟩ := happ.upToDate (by simp) (Or.inl hrunning)
  have hall : d.ctx.allServers = config.staticServers ++ (lastUpdate d.log).1 := by
    have hdyn : d.ctx.currentDynamicServers = (lastUpdate d.log).1 := happ.dynamic hlive
    rw [← hdyn]
    exact joined_run is (by rw [hrunning]; rfl)
  have hsome : (serverListToHashTable p (d.ctx.allServers.map ServerUri.withoutCa)).isSome = true := by
    refine serverListToHashTable_isSome p fun s hs => ?_
    obtain ⟨s, hmem, rfl⟩ := List.mem_map.mp hs
    exact (hparsed s hmem).networks_isIp
  obtain ⟨table', htable'⟩ := Option.isSome_iff_exists.mp hsome
  refine ⟨_, table', readStatus_configToJson hnet order hparsed, happ.mode hlive, ?_, htable', ?_⟩
  · rw [hall]
  intro domain uris
  have hlookup := lookup_map_withoutCa hsort (hwell.table table htable) htable' domain
  have hrecord : recordedServers d.ctx domain =
      (table.lookup domain).bind (usedServersOf d.ctx.resolutionMode domain) := by
    rw [recordedServers, hrecorded]
    exact Table.lookup_collect_visit _ order' table domain
  have huri : (cacheServerUri p.inet) ∘ ServerUri.withoutCa = cacheServerUri p.inet := rfl
  dsimp only
  rw [hrecord, hlookup]
  cases table.lookup domain with
  | none => simp
  | some group =>
    simp only [Option.bind_some, Option.map_some, Option.some.injEq, exists_eq_left',
      Option.map_eq_some_iff, usedServersOf_eq_some_iff, getUsedServers_map_withoutCa,
      List.map_map, huri]
    constructor
    · rintro ⟨used, ⟨rfl, hne⟩, rfl⟩
      exact ⟨rfl, by simpa using hne⟩
    · rintro ⟨rfl, hne⟩
      exact ⟨_, ⟨rfl, by simpa using hne⟩, rfl⟩

/-- The plain platform with addresses that are read back. -/
def Platform.dotted : Platform :=
  { Platform.plain with inet := .dotted }

lemma Platform.dotted_sortsByComparison : Platform.dotted.SortsByComparison := by
  intro f compare servers hcompare
  refine (List.map_insertionSort _ _ f servers fun a _ b _ => ?_).symm
  rw [hcompare]

/-- The inputs that lead to a running daemon with one server. -/
def statusInputs : List Input :=
  [.ok .nameAcquired, .ok (.jobFinished "done"),
    .ok (.updateCall [[("address", .byteString [192, 0, 2, 1]), ("protocol", .string "dns+tls"),
      ("name", .string "dns.example")]] 0)]

/-- The reply after an Update with one server. -/
theorem status_running_consistent_update :
    let d := (daemon .dotted .plain).run statusInputs
    d.ctx.currentState = .running ∧
    ∃ view table, readStatus .dotted (configToJson .dotted .stored d.ctx) = some view ∧
      view.mode = (lastUpdate d.log).2 ∧
      view.servers = ([] ++ (lastUpdate d.log).1).map ServerUri.withoutCa ∧
      serverListToHashTable .dotted view.servers = some table ∧
      ∀ domain uris, view.cacheConfig domain = some uris ↔
        ∃ servers, table.lookup domain = some servers ∧
          (getUsedServers servers view.mode domain).map (cacheServerUri .dotted) = uris ∧
          uris ≠ [] :=
  ⟨by decide, status_running_consistent .dotted lawful_dotted Platform.dotted_sortsByComparison
    .plain (by simp [Config.plain]) statusInputs (by decide) .stored⟩

/-! ## What the URIs say about the cache -/

/-- The host of a URI behind `://`, and what follows it. -/
def readHost : List Char → List Char × List Char
  | '[' :: text => (text.takeWhile (· ≠ ']'), (text.dropWhile (· ≠ ']')).tail)
  | text => (text.takeWhile fun c => c ≠ ':' && c ≠ '#', text.dropWhile fun c => c ≠ ':' && c ≠ '#')

/-- The protocol of a URI in `cache_config` and the address in the form that the cache takes: the
host, the port, which is the usual one if there is none, and the name. -/
def readCacheUri (uri : String) : DnsProtocol × String :=
  let protocol := protocolFromNstring (String.ofList (uri.toList.take 7))
  let host := readHost (uri.toList.drop 10)
  let port := (host.2.takeWhile (· ≠ '#')).tail
  let usual := if protocol = .tls then "853" else "53"
  (protocol, String.ofList (host.1 ++ '@' :: (if port = [] then usual.toList else port) ++
    host.2.dropWhile (· ≠ '#')))

/-- Where the cache forwards a domain and whether it uses TLS, as the reply says; the root domain is
forwarded to the loopback address if it is not in the reply. -/
def StatusView.forwarding (view : StatusView) (domain : String) : Option (List String × Bool) :=
  match view.cacheConfig domain with
  | some uris =>
    some ((uris.map readCacheUri).map Prod.snd,
      (uris.map readCacheUri).head?.any fun target => target.1 = .tls)
  | none => if domain = "." then some (["127.0.0.1"], false) else none

/-- What is assumed of the texts that `inet_ntop` makes: those of IPv4 addresses have none of the
characters that end a host, those of IPv6 addresses have no closing bracket. -/
structure Inet.PrintsHosts (net : Inet) : Prop where
  ntop4 : ∀ a, ∀ c ∈ (net.ntop4 a).toList, c ≠ ':' ∧ c ≠ '#' ∧ c ≠ '['
  ntop6 : ∀ a, ']' ∉ (net.ntop6 a).toList

/-- The host in the URI of a server. -/
def uriHost (net : Inet) : SockAddr → List Char
  | .inet a _ => (net.ntop4 a).toList
  | address => '[' :: ((ipToStr net address).getD "").toList ++ [']']

/-- The port that is left out. -/
def DnsProtocol.usualPort (protocol : DnsProtocol) : UInt16 :=
  if protocol = .tls then 853 else 53

/-- The port in the URI of a server. -/
def uriPort (server : ServerUri) : List Char :=
  if server.address.port = server.protocol.usualPort then []
  else ':' :: (toString server.address.port.toNat).toList

/-- The name in the URI of a server. -/
def uriName (server : ServerUri) : List Char :=
  if server.protocol = .tls then
    match server.name with
    | some name => '#' :: name.toList
    | none => []
  else []

/-- The parts of the URI of a server. -/
lemma toList_cacheServerUri (net : Inet) (s : ServerUri) :
    (cacheServerUri net s).toList = s.protocol.toText.toList ++ ("://".toList ++
      (uriHost net s.address ++ (uriPort s ++ uriName s))) := by
  unfold cacheServerUri uriPort uriName DnsProtocol.usualPort
  by_cases htls : s.protocol = .tls
  · by_cases hport : s.address.port = 853 <;> cases s.name <;> cases haddress : s.address <;>
      simp_all [uriHost, ipToStr]
  · by_cases hport : s.address.port = 53 <;> cases haddress : s.address <;>
      simp_all [uriHost, ipToStr]

/-- What follows the host of a URI. -/
def EndsHost (rest : List Char) : Prop :=
  ∀ c ∈ rest.head?, c = ':' ∨ c = '#'

/-- The host of a URI is read back. -/
lemma readHost_uriHost {net : Inet} (hnet : net.PrintsHosts) {address : SockAddr}
    (hip : address.isIp = true) {rest : List Char} (hrest : EndsHost rest) :
    readHost (uriHost net address ++ rest) =
      (((ipToStr net address).getD "").toList, rest) := by
  cases address with
  | unspec => cases hip
  | inet a port =>
    change readHost ((net.ntop4 a).toList ++ rest) = ((net.ntop4 a).toList, rest)
    have hhost : ∀ c ∈ (net.ntop4 a).toList, (c ≠ ':' && c ≠ '#') = true := by
      intro c hc
      obtain ⟨hcolon, hhash, -⟩ := hnet.ntop4 a c hc
      simp [hcolon, hhash]
    have hstop : rest.takeWhile (fun c => c ≠ ':' && c ≠ '#') = [] ∧
        rest.dropWhile (fun c => c ≠ ':' && c ≠ '#') = rest := by
      cases rest with
      | nil => exact ⟨rfl, rfl⟩
      | cons c rest =>
        rcases hrest c rfl with rfl | rfl
        · exact ⟨rfl, rfl⟩
        · exact ⟨rfl, rfl⟩
    have hopen : ((net.ntop4 a).toList ++ rest).head? ≠ some '[' := by
      intro hhead
      rw [List.head?_append, Option.or_eq_some_iff] at hhead
      rcases hhead with hhead | ⟨-, hhead⟩
      · exact (hnet.ntop4 a _ (List.mem_of_mem_head? hhead)).2.2 rfl
      · rcases hrest _ hhead with h | h <;> exact absurd h (by decide)
    unfold readHost
    split
    · rename_i text htext
      rw [htext] at hopen
      exact absurd rfl hopen
    · rw [List.takeWhile_append_of_pos hhost, List.dropWhile_append_of_pos hhost, hstop.1, hstop.2,
        List.append_nil]
  | inet6 a port =>
    change readHost ('[' :: ((net.ntop6 a).toList ++ [']'] ++ rest)) = ((net.ntop6 a).toList, rest)
    have hhost : ∀ c ∈ (net.ntop6 a).toList, decide (c ≠ ']') = true := by
      intro c hc
      rw [decide_eq_true_eq]
      rintro rfl
      exact hnet.ntop6 a hc
    rw [readHost, List.append_assoc, List.takeWhile_append_of_pos hhost,
      List.dropWhile_append_of_pos hhost]
    simp

/-- The port and the name of a URI are read back. -/
lemma read_uriPort_uriName (s : ServerUri) :
    (uriPort s ++ uriName s).takeWhile (· ≠ '#') = uriPort s ∧
      (uriPort s ++ uriName s).dropWhile (· ≠ '#') = uriName s ∧
      EndsHost (uriPort s ++ uriName s) := by
  have hport : ∀ c ∈ uriPort s, decide (c ≠ '#') = true := by
    intro c hc
    rw [decide_eq_true_eq]
    rintro rfl
    unfold uriPort at hc
    split_ifs at hc
    · cases hc
    · rw [Nat.toString_eq_repr, Nat.toList_repr] at hc
      rcases List.mem_cons.mp hc with h | h
      · exact absurd h (by decide)
      · exact absurd (Nat.isDigit_of_mem_toDigits (by decide) (by decide) h) (by decide)
  have hname : uriName s = [] ∨ ∃ name, uriName s = '#' :: name := by
    unfold uriName
    split_ifs
    · cases s.name with
      | none => exact Or.inl rfl
      | some name => exact Or.inr ⟨name.toList, rfl⟩
    · exact Or.inl rfl
  rw [List.takeWhile_append_of_pos hport, List.dropWhile_append_of_pos hport]
  have hends : EndsHost (uriPort s ++ uriName s) := by
    intro c hc
    rw [List.head?_append] at hc
    unfold uriPort at hc
    split_ifs at hc
    · rcases hname with h | ⟨name, h⟩
      · rw [h] at hc
        cases hc
      · rw [h] at hc
        exact Or.inr (Option.some.inj hc).symm
    · exact Or.inl (Option.some.inj hc).symm
  rcases hname with h | ⟨name, h⟩
  · rw [h] at hends ⊢
    exact ⟨by simp, by simp, hends⟩
  · rw [h] at hends ⊢
    exact ⟨by simp, by simp, hends⟩

/-- The URI of a server in the reply tells its protocol and the address that the cache is given. -/
lemma readCacheUri_cacheServerUri {net : Inet} (hnet : net.PrintsHosts) {s : ServerUri}
    (hs : s.WellFormed) :
    readCacheUri (cacheServerUri net s) = (s.protocol, serverToUnboundString net s) := by
  obtain ⟨htake, hdrop, hends⟩ := read_uriPort_uriName s
  have hlength : s.protocol.toText.toList.length = 7 := by
    have hend := hs.protocol
    revert hend
    cases s.protocol <;> decide
  have hscheme : (cacheServerUri net s).toList.take 7 = s.protocol.toText.toList := by
    rw [toList_cacheServerUri, ← hlength, List.take_left]
  have hrest : (cacheServerUri net s).toList.drop 10 =
      uriHost net s.address ++ (uriPort s ++ uriName s) := by
    have hten : 10 = s.protocol.toText.toList.length + 3 := by rw [hlength]
    rw [toList_cacheServerUri, hten, ← List.drop_drop, List.drop_left]
    rfl
  unfold readCacheUri
  rw [hscheme, String.ofList_toList, protocolFromNstring_toText hs.protocol, hrest,
    readHost_uriHost hnet hs.address hends]
  dsimp only
  rw [htake, hdrop]
  refine congrArg (Prod.mk s.protocol) (String.toList_injective ?_)
  rw [String.toList_ofList]
  have hnonzero := hs.port
  have h853 : Nat.toDigits 10 853 = ['8', '5', '3'] := by decide
  have h53 : Nat.toDigits 10 53 = ['5', '3'] := by decide
  unfold uriPort uriName DnsProtocol.usualPort serverToUnboundString
  by_cases htls : s.protocol = .tls
  · by_cases hport : s.address.port = 853 <;> cases s.name <;> simp [htls, hport, hnonzero, h853]
  · by_cases hport : s.address.port = 53 <;> simp [htls, hport, hnonzero, h53]

/-- The zone that the cache is given for some servers, as their URIs tell it. -/
lemma forwarding_commandZone {net : Inet} (hnet : net.PrintsHosts) {servers : List ServerUri}
    (hservers : ∀ s ∈ servers, s.WellFormed) :
    (commandZone net servers).forwarding =
      (((servers.map (cacheServerUri net)).map readCacheUri).map Prod.snd,
        ((servers.map (cacheServerUri net)).map readCacheUri).head?.any
          fun target => target.1 = .tls) := by
  have hread : (servers.map (cacheServerUri net)).map readCacheUri =
      servers.map fun s => (s.protocol, serverToUnboundString net s) := by
    rw [List.map_map]
    exact List.map_congr_left fun s hs => readCacheUri_cacheServerUri hnet (hservers s hs)
  have haddresses : servers.map (serverArg net) = servers.map (serverToUnboundString net) :=
    List.map_congr_left fun s _ => serverArg_eq net s
  rw [hread, List.map_map, List.head?_map, Option.any_map]
  exact congrArg (fun addresses => (addresses, _)) haddresses

/-- The servers recorded by a running daemon are well formed. -/
lemma wellFormed_recordedServers (hp : p.SortPermutes)
    (hstatic : ∀ s ∈ config.staticServers, s.WellFormed) {is : List Input}
    (hrunning : ((daemon p config).run is).ctx.currentState = .running) {domain : String}
    {servers : List ServerUri}
    (hrecorded : recordedServers ((daemon p config).run is).ctx domain = some servers) :
    ∀ s ∈ servers, s.WellFormed := by
  intro s hs
  have hwell := (@holdsWellFormed_run p config hstatic is).2
  have happ := (@applied_run p config is).1
  obtain ⟨-, table, order, htable, htable'⟩ := happ.upToDate (by simp [Daemon.moment])
    (Or.inl hrunning)
  rw [recordedServers] at hrecorded
  change (((daemon p config).run is).ctx.currentUnboundDomainToServers) = _ at htable'
  rw [htable'] at hrecorded
  change (usedServersTable order table _).lookup domain = _ at hrecorded
  rw [usedServersTable, Table.lookup_collect_visit] at hrecorded
  obtain ⟨group, hgroup, hused⟩ := Option.bind_eq_some_iff.mp hrecorded
  obtain ⟨rfl, -⟩ := usedServersOf_eq_some_iff.mp hused
  have hmem := (ne_nil_of_lookup_serverListToHashTable hp (hwell.table table htable) hgroup).2 s
  exact hwell.all s (hmem.mp (mem_getUsedServers hs).1).1

/-- Dotted addresses are hosts. -/
lemma printsHosts_dotted : Inet.dotted.PrintsHosts := by
  refine ⟨fun a c hc => ?_, fun a hmem => ?_⟩
  · have htext : c ∈ dottedText a.toList := by simpa [Inet.dotted] using hc
    rcases (dottedText_spec a.toList).1 c htext with rfl | hdigit
    · decide
    · refine ⟨?_, ?_, ?_⟩ <;> rintro rfl <;> exact absurd hdigit (by decide)
  · have htext : ']' ∈ a.toList.map byteChar := by simpa [Inet.dotted] using hmem
    obtain ⟨b, -, hb⟩ := List.mem_map.mp htext
    have hlarge := toNat_byteChar b
    rw [hb] at hlarge
    exact absurd hlarge (by
      have hsmall : ']'.toNat = 93 := rfl
      omega)

end Dnsconfd
