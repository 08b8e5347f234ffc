import Dnsconfd.ConfigurationParsing.Documents
import Dnsconfd.DbusServer.ServersWellFormed

/-!
# Zones of static and dynamic servers

Static servers come from the configuration file and dynamic ones over D-Bus, and the table groups
them by the text of the domain.  `save_domains` brings a domain into its IDN form and rejects some
texts; `parse_domains` of the configuration file takes every text as it is.  Servers of the two
kinds that name the same domain thus meet in one zone, and what one path rejects the other rejects
as well, exactly for the domains that are in IDN form already (`domains_agree_iff`).
-/

namespace Dnsconfd

open Library

/-! ## The files that are read -/

namespace ConfigFile

/-- The files that the loop of `parse_config_file` reads, each with the configuration it starts
from. -/
def visitedFiles (net : Inet) (files : Files) :
    ℕ → List String → RawConfig → List (String × RawConfig)
  | _, [], _ => []
  | 0, _ :: _, _ => []
  | remaining + 1, currentFile :: filesToParse, config =>
    (currentFile, config) ::
      match parseSingleConfigFile net files currentFile config with
      | some (.ok (parsed, _)) =>
        match parsed.includePaths.foldlM (fun acc path => resolveIncludePath files path acc)
            filesToParse with
        | .ok filesToParse => visitedFiles net files remaining filesToParse parsed.config
        | .error _ => []
      | _ => []

/-- `parse_static_servers` keeps the servers there are. -/
lemma subset_of_parseStaticServers {net : Inet} {events rest : List YamlEvent}
    {servers : List ServerUri} {parsed : StaticServersState}
    (h : parseStaticServers net events servers = some (.ok (parsed, rest))) :
    servers ⊆ parsed.staticServers := by
  refine readAll_rule (P := fun s => servers ⊆ s.staticServers)
    (Q := fun s => servers ⊆ s.staticServers) ?_ ?_ (List.Subset.refl _) h
  · intro s event rest s' rest' hs hturn
    rcases staticServersBody_continued hturn with ⟨draft, key, -, hlist⟩ |
      ⟨-, ⟨key, rfl⟩ | rfl | ⟨draft, -, -, rfl⟩ | ⟨draft, key, value, draft', -, -, rfl⟩⟩
    · rcases readServerList_continued hlist with ⟨_, _, _, -, rfl⟩ | ⟨_, -, rfl⟩ <;> exact hs
    · exact hs
    · exact hs
    · exact List.Subset.trans hs (List.subset_append_left _ _)
    · exact hs
  · intro s event rest s' rest' hs hturn
    rw [(staticServersBody_finished hturn).1]
    exact hs

/-- A configuration file keeps the static servers there are. -/
lemma subset_of_parseSingleConfigFile {net : Inet} {files : Files} {path : String}
    {config : RawConfig} {parsed : FileState} {rest : List YamlEvent} {servers : List ServerUri}
    (hservers : servers ⊆ config.staticServers)
    (h : parseSingleConfigFile net files path config = some (.ok (parsed, rest))) :
    servers ⊆ parsed.config.staticServers := by
  refine parseSingleConfigFile_rule (P := fun c => servers ⊆ c.staticServers)
    (fun s key value s' hs hstore => ?_) (fun _ _ _ _ hc hread => ?_) (fun _ _ hc => hc) hservers h
  · rw [staticServers_of_storeOption hstore]
    exact hs
  · exact List.Subset.trans hc (subset_of_parseStaticServers hread)

/-- Every file that is read on the way to an accepted configuration is accepted, and its static
servers are in the configuration. -/
lemma exists_parsed_of_mem_visitedFiles {net : Inet} {files : Files} {remaining : ℕ}
    {filesToParse : List String} {config config' result : RawConfig} {path : String}
    (h : parseFiles net files remaining filesToParse config = some (.ok result))
    (hmem : (path, config') ∈ visitedFiles net files remaining filesToParse config) :
    ∃ parsed rest, parseSingleConfigFile net files path config' = some (.ok (parsed, rest)) ∧
      parsed.config.staticServers ⊆ result.staticServers := by
  induction remaining generalizing filesToParse config with
  | zero => cases filesToParse <;> cases hmem
  | succ remaining ih =>
    cases filesToParse with
    | nil => cases hmem
    | cons currentFile filesToParse =>
      simp only [parseFiles] at h
      simp only [visitedFiles, List.mem_cons] at hmem
      split at h
      · cases h
      · cases h
      · rename_i parsed rest hparsed
        split at h
        · cases h
        · rename_i nextFiles hnext
          rcases hmem with hfirst | hlater
          · obtain ⟨rfl, rfl⟩ := Prod.mk.inj hfirst
            refine ⟨parsed, rest, hparsed, ?_⟩
            exact parseFiles_rule (P := fun c => parsed.config.staticServers ⊆ c.staticServers)
              (fun _ _ _ _ hc hfile => subset_of_parseSingleConfigFile hc hfile)
              (List.Subset.refl _) h
          · simp only [hparsed, hnext] at hlater
            exact ih h hlater

/-! ## Static servers of a document -/

/-- What a field adds to the routing domains of a server stays there. -/
lemma routingDomains_of_storeField {net : Inet} {field : String × YamlValue}
    {draft draft' : ServerDraft} (h : storeField net draft field = .ok draft') :
    draft.server.routingDomains ⊆ draft'.server.routingDomains ∧
      ∀ values, field = ("routing_domains", .sequence values) →
        values ⊆ draft'.server.routingDomains := by
  obtain ⟨key, value⟩ := field
  cases value with
  | scalar value =>
    refine ⟨?_, fun values heq => by cases heq⟩
    have hsame : draft'.server.routingDomains = draft.server.routingDomains := by
      simp only [storeField, storeServerField] at h
      grind
    rw [hsame]
    exact List.Subset.refl _
  | sequence values =>
    simp only [storeField, storeServerList] at h
    split_ifs at h with hrouting hsearch hnetworks
    · obtain rfl := Except.ok.inj h
      refine ⟨List.subset_append_left _ _, ?_⟩
      rintro _ heq
      cases heq
      exact List.subset_append_right _ _
    · obtain rfl := Except.ok.inj h
      exact ⟨List.Subset.refl _, fun _ heq => absurd (Prod.mk.inj heq).1 hrouting⟩
    · split at h
      · cases h
      · obtain rfl := Except.ok.inj h
        exact ⟨List.Subset.refl _, fun _ heq => absurd (Prod.mk.inj heq).1 hrouting⟩

/-- All routing domains of the mapping of a server are routing domains of the server. -/
lemma mem_routingDomains_of_serverOfMapping {net : Inet} {mapping : YamlMapping}
    {server : ServerUri} (h : serverOfMapping net mapping = .ok server) {values : List String}
    (hfield : ("routing_domains", .sequence values) ∈ mapping) {w : String} (hw : w ∈ values) :
    w ∈ server.routingDomains := by
  have hfold : ∀ (mapping : YamlMapping) (draft draft' : ServerDraft),
      mapping.foldlM (storeField net) draft = .ok draft' →
      draft.server.routingDomains ⊆ draft'.server.routingDomains ∧
        (("routing_domains", .sequence values) ∈ mapping →
          values ⊆ draft'.server.routingDomains) := by
    intro mapping
    induction mapping with
    | nil =>
      intro draft draft' h
      obtain rfl : draft = draft' := Except.ok.inj h
      exact ⟨List.Subset.refl _, fun hmem => by cases hmem⟩
    | cons field mapping ih =>
      intro draft draft' h
      rw [List.foldlM_cons] at h
      obtain ⟨draft₁, hfirst, hrest⟩ := ok_of_bind h
      obtain ⟨hgrows, hadds⟩ := routingDomains_of_storeField hfirst
      obtain ⟨hkept, hlater⟩ := ih draft₁ draft' hrest
      refine ⟨List.Subset.trans hgrows hkept, fun hmem => ?_⟩
      rcases List.mem_cons.mp hmem with heq | hmem
      · exact List.Subset.trans (hadds values heq.symm) hkept
      · exact hlater hmem
  unfold serverOfMapping at h
  split at h
  · cases h
  rename_i draft hdraft
  split at h
  · cases h
  obtain rfl := Except.ok.inj h
  have hmem : w ∈ draft.server.routingDomains := (hfold mapping _ draft hdraft).2 hfield hw
  simp only [ServerDraft.complete, if_neg (List.ne_nil_of_mem hmem)]
  exact hmem

/-- Every static server of a document that is stored has a mapping that is accepted, and is in the
configuration. -/
lemma exists_server_of_foldlM_storeEntry {net : Inet} {entries : List ConfigEntry}
    {s s' : FileState} (h : entries.foldlM (storeEntry net) s = .ok s')
    {mappings : List YamlMapping} (hentry : .staticServers mappings ∈ entries)
    {mapping : YamlMapping} (hmapping : mapping ∈ mappings) :
    ∃ server, serverOfMapping net mapping = .ok server ∧ server ∈ s'.config.staticServers := by
  have hgrows : ∀ {entry : ConfigEntry} {s s' : FileState}, storeEntry net s entry = .ok s' →
      s.config.staticServers ⊆ s'.config.staticServers := by
    intro entry s s' hstore
    cases entry with
    | option key value => rw [staticServers_of_storeOption hstore]; exact List.Subset.refl _
    | staticServers servers =>
      simp only [storeEntry] at hstore
      split at hstore
      · cases hstore
      · obtain rfl := Except.ok.inj hstore
        exact List.subset_append_left _ _
  obtain ⟨before, after, rfl⟩ := List.append_of_mem hentry
  rw [List.foldlM_append] at h
  obtain ⟨s₁, -, h⟩ := ok_of_bind h
  rw [List.foldlM_cons] at h
  obtain ⟨s₂, hstore, hafter⟩ := ok_of_bind h
  simp only [storeEntry] at hstore
  split at hstore
  · cases hstore
  rename_i parsed hparsed
  obtain rfl := Except.ok.inj hstore
  obtain ⟨server, hserver, hmem⟩ := exists_of_mem_mapM_ok hparsed hmapping
  refine ⟨server, hserver, ?_⟩
  refine foldlM_ok_invariant (P := fun s => server ∈ s.config.staticServers) ?_ ?_ hafter
  · exact fun entry _ s s' hs hstore => hgrows hstore hs
  · exact List.mem_append_right _ hmem

end ConfigFile

/-! ## Dynamic servers -/

/-- A loop that converts and appends keeps what there is and adds all it converts. -/
lemma subset_of_appendConverted {α : Type} {convert : String → Option α} {error : ParseError}
    {texts : List String} {acc result : List α}
    (h : appendConverted convert error texts acc = .ok result) :
    acc ⊆ result ∧ ∀ text ∈ texts, ∀ a, convert text = some a → a ∈ result := by
  rw [appendConverted_eq] at h
  cases hvalues : texts.mapM convert with
  | none => rw [hvalues] at h; cases h
  | some values =>
    rw [hvalues] at h
    obtain rfl := Except.ok.inj h
    exact ⟨List.subset_append_left _ _, fun text htext a ha =>
      List.mem_append_right _ (mem_of_mapM hvalues htext ha)⟩

/-- The rows of `key_type_parser` keep the routing domains there are. -/
lemma routingDomains_of_run {p : Platform} {dict : VariantDict} {field : FieldParser}
    (hfield : field ∈ keyTypeParser p) {s s' : ServerUri} (h : field.run dict s = .ok s') :
    s.routingDomains ⊆ s'.routingDomains := by
  have hpresent : ∀ {α : Type} {value : Option α} {parser : α → ServerUri → ParseResult},
      (∀ v s', parser v s = .ok s' → s.routingDomains ⊆ s'.routingDomains) →
      parsePresent value parser s = .ok s' → s.routingDomains ⊆ s'.routingDomains := by
    intro α value parser hparser h
    cases value with
    | none =>
      obtain rfl : s = s' := Except.ok.inj h
      exact List.Subset.refl _
    | some v => exact hparser v s' h
  simp only [keyTypeParser, List.mem_cons, List.not_mem_nil, or_false] at hfield
  rcases hfield with rfl | rfl | rfl | rfl | rfl | rfl | rfl | rfl | rfl | rfl <;>
    refine hpresent (fun v s' hv => ?_) h
  · unfold parsePort at hv
    split_ifs at hv
    obtain rfl := Except.ok.inj hv
    exact List.Subset.refl _
  · obtain rfl := Except.ok.inj hv
    exact List.Subset.refl _
  · unfold parseProtocol at hv
    split_ifs at hv
    obtain rfl := Except.ok.inj hv
    exact List.Subset.refl _
  · unfold parseInterface at hv
    split_ifs at hv
    obtain rfl := Except.ok.inj hv
    exact List.Subset.refl _
  · obtain rfl := Except.ok.inj hv
    exact List.Subset.refl _
  · obtain rfl := Except.ok.inj hv
    exact List.Subset.refl _
  · obtain rfl := Except.ok.inj hv
    exact List.Subset.refl _
  · -- the routing domains themselves are appended to
    obtain ⟨domains, hdomains, hv⟩ := ok_of_bind hv
    obtain rfl := Except.ok.inj hv
    exact (subset_of_appendConverted hdomains).1
  · obtain ⟨domains, -, hv⟩ := ok_of_bind hv
    obtain rfl := Except.ok.inj hv
    exact List.Subset.refl _
  · obtain ⟨networks, -, hv⟩ := ok_of_bind hv
    obtain rfl := Except.ok.inj hv
    exact List.Subset.refl _

/-- The IDN form of each routing domain in a dictionary is a routing domain of the server. -/
lemma mem_routingDomains_of_parseServerDict {p : Platform} {dict : VariantDict} {server : ServerUri}
    (h : parseServerDict p dict = .ok server) {domains : List String}
    (hdomains : dictStringArray dict "routing_domains" = some domains) {w idn : String}
    (hw : w ∈ domains) (hidn : domainToIdn p w = some idn) : idn ∈ server.routingDomains := by
  obtain ⟨addressed, -, h⟩ := ok_of_bind h
  obtain ⟨parsed, hfields, h⟩ := ok_of_bind h
  obtain rfl := Except.ok.inj h
  -- once the row of the routing domains has run, the domain is there and stays
  have hmem : idn ∈ parsed.routingDomains := by
    have hsplit : keyTypeParser p = (keyTypeParser p).take 7 ++
        .stringArray "routing_domains" (parseDomains p) :: (keyTypeParser p).drop 8 := rfl
    rw [hsplit, List.foldlM_append] at hfields
    obtain ⟨before, -, hfields⟩ := ok_of_bind hfields
    rw [List.foldlM_cons] at hfields
    obtain ⟨after, hrow, hrest⟩ := ok_of_bind hfields
    have hafter : idn ∈ after.routingDomains := by
      simp only [FieldParser.run, hdomains, parsePresent] at hrow
      obtain ⟨saved, hsaved, hrow⟩ := ok_of_bind hrow
      obtain rfl := Except.ok.inj hrow
      exact (subset_of_appendConverted hsaved).2 w hw idn hidn
    refine foldlM_ok_invariant (P := fun s => idn ∈ s.routingDomains) ?_ hafter hrest
    intro field hfield s s' hs hrun
    exact routingDomains_of_run (List.mem_of_mem_drop hfield) hrun hs
  simp only [setDefaults, if_neg (List.ne_nil_of_mem hmem)]
  exact hmem

lemma routingDomains_lowerWireless (isWireless : String → Bool) (s : ServerUri) :
    (lowerWireless isWireless s).routingDomains = s.routingDomains := by
  unfold lowerWireless
  split <;> rfl

/-! ## Agreement -/

/-- One of the files that are read describes a static server by a mapping that has the domain in a
list under the key. -/
def ListsDomain (net : Inet) (files : ConfigFile.Files) (root key w : String)
    (mapping : ConfigFile.YamlMapping) : Prop :=
  ∃ path config entries mappings values,
    (path, config) ∈ ConfigFile.visitedFiles net files ConfigFile.maxIncludeFiles [root] .empty ∧
    files.events path = some (ConfigFile.documentEvents entries) ∧
    .staticServers mappings ∈ entries ∧ mapping ∈ mappings ∧
    (key, .sequence values) ∈ mapping ∧ w ∈ values

/-- An Update that is accepted brings a server whose dictionary has the domain among its routing
domains. -/
def BringsDomain (p : Platform) (w : String) (dynamicServers : List ServerUri)
    (server : ServerUri) : Prop :=
  ∃ isWireless dicts mode mode' dict domains parsed,
    decodeUpdateCall p isWireless dicts mode = .ok (dynamicServers, mode') ∧ dict ∈ dicts ∧
    dictStringArray dict "routing_domains" = some domains ∧ w ∈ domains ∧
    parseServerDict p dict = .ok parsed ∧ server = lowerWireless isWireless parsed ∧
    server ∈ dynamicServers

/-- Every static server and every dynamic server that name the domain are in the list of one key of
the table of all servers. -/
def SharesZone (p : Platform) (w : String) : Prop :=
  ∀ files root config mapping dynamicServers dynamicServer,
    ConfigFile.parseConfigFile p.inet files root .empty = some (.ok config) →
    ListsDomain p.inet files root "routing_domains" w mapping →
    BringsDomain p w dynamicServers dynamicServer →
    ∃ staticServer table key servers,
      ConfigFile.serverOfMapping p.inet mapping = .ok staticServer ∧
      serverListToHashTable p (config.staticServers ++ dynamicServers) = some table ∧
      table.lookup key = some servers ∧ staticServer ∈ servers ∧ dynamicServer ∈ servers

/-- No configuration file that names the domain as a routing or search domain is accepted. -/
def FileRejects (p : Platform) (w : String) : Prop :=
  ∀ files root key mapping, key = "routing_domains" ∨ key = "search_domains" →
    ListsDomain p.inet files root key w mapping →
    ∀ config, ConfigFile.parseConfigFile p.inet files root .empty ≠ some (.ok config)

/-- The static server of a mapping is in the configuration that is accepted. -/
lemma exists_staticServer {net : Inet} {files : ConfigFile.Files} {root key w : String}
    {mapping : ConfigFile.YamlMapping} {config : RawConfig}
    (h : ConfigFile.parseConfigFile net files root .empty = some (.ok config))
    (hlists : ListsDomain net files root key w mapping) :
    ∃ server, ConfigFile.serverOfMapping net mapping = .ok server ∧
      server ∈ config.staticServers := by
  obtain ⟨path, config', entries, mappings, values, hvisited, hevents, hentry, hmapping, -, -⟩ :=
    hlists
  obtain ⟨parsed, rest, hfile, hsubset⟩ := ConfigFile.exists_parsed_of_mem_visitedFiles h hvisited
  rw [ConfigFile.parseSingleConfigFile, hevents] at hfile
  dsimp only at hfile
  rw [ConfigFile.readAll_document] at hfile
  split at hfile
  · cases hfile
  rename_i s hfold
  obtain ⟨rfl, -⟩ := Prod.mk.inj (Except.ok.inj (Option.some.inj hfile))
  obtain ⟨server, hserver, hmem⟩ :=
    ConfigFile.exists_server_of_foldlM_storeEntry hfold hentry hmapping
  exact ⟨server, hserver, hsubset hmem⟩

/-- Two servers that are entered under one domain meet there. -/
lemma exists_shared_list {p : Platform} (hp : p.SortPermutes) {serverList : List ServerUri}
    {table : ServerTable} (h : serverListToHashTable p serverList = some table) {w : String}
    {s d : ServerUri} (hs : s ∈ serverList) (hd : d ∈ serverList) (hsw : w ∈ s.tableDomains)
    (hdw : w ∈ d.tableDomains) :
    ∃ servers, table.lookup w = some servers ∧ s ∈ servers ∧ d ∈ servers := by
  have hmem : s ∈ serversFor w serverList := mem_serversFor.mpr ⟨hs, hsw⟩
  have hlookup : table.lookup w = some (p.gListSort compareServers (serversFor w serverList)) := by
    rw [lookup_serverListToHashTable h, storedList, if_neg (List.ne_nil_of_mem hmem)]
    rfl
  have hperm := hp compareServers (serversFor w serverList)
  refine ⟨_, hlookup, hperm.mem_iff.mpr hmem, hperm.mem_iff.mpr ?_⟩
  exact mem_serversFor.mpr ⟨hd, hdw⟩

/-- Servers meet in the zone of a domain that `save_domains` keeps as it is. -/
lemma sharesZone_of_domainToIdn {p : Platform} (hp : p.SortPermutes) {w : String}
    (hidn : domainToIdn p w = some w) : SharesZone p w := by
  intro files root config mapping dynamicServers dynamicServer hconfig hlists hbrings
  obtain ⟨staticServer, hstatic, hmem⟩ := exists_staticServer hconfig hlists
  obtain ⟨isWireless, dicts, mode, mode', dict, domains, parsed, hdecode, -, hdomains, hw, hparsed,
    rfl, hdynamic⟩ := hbrings
  have hwell : ∀ s ∈ config.staticServers ++ dynamicServers, s.WellFormed := by
    intro s hs
    rcases List.mem_append.mp hs with hs | hs
    · exact ConfigFile.parseConfigFile_wellFormed (by simp [RawConfig.empty]) hconfig s hs
    · exact wellFormed_decodeUpdateCall hdecode s hs
  obtain ⟨table, htable⟩ := Option.isSome_iff_exists.mp (serverListToHashTable_isSome p
    fun s hs => (hwell s hs).toIsParsed.networks_isIp)
  have hstaticw : w ∈ staticServer.tableDomains := by
    obtain ⟨_, _, _, _, values, _, _, _, _, hfield, hvalues⟩ := hlists
    exact List.mem_append_left _
      (ConfigFile.mem_routingDomains_of_serverOfMapping hstatic hfield hvalues)
  have hdynamicw : w ∈ (lowerWireless isWireless parsed).tableDomains := by
    refine List.mem_append_left _ ?_
    rw [routingDomains_lowerWireless]
    exact mem_routingDomains_of_parseServerDict hparsed hdomains hw hidn
  obtain ⟨servers, hlookup, hs, hd⟩ := exists_shared_list hp htable
    (List.mem_append_left _ hmem) (List.mem_append_right _ hdynamic) hstaticw hdynamicw
  exact ⟨staticServer, table, w, servers, hstatic, htable, hlookup, hs, hd⟩

/-- A file with one static server that names one domain in one list. -/
def singleServerFile (text key w : String) : List ConfigFile.ConfigEntry :=
  [.staticServers [[("address", .scalar text), (key, .sequence [w])]]]

/-- A dictionary of a server that names one domain. -/
def singleDomainDict (w : String) : VariantDict :=
  [("address", .byteString [127, 0, 0, 1]), ("routing_domains", .stringArray [w])]

/-- A server at the loopback address that serves one domain. -/
def loopbackServer (w : String) : ServerUri :=
  { ServerUri.initial with address := .inet loopbackAddress 53, routingDomains := [w] }

lemma listsDomain_single (net : Inet) (text key w : String) :
    ListsDomain net (.single (singleServerFile text key w)) "/etc/dnsconfd/dnsconfd.conf" key w
      [("address", .scalar text), (key, .sequence [w])] := by
  refine ⟨"/etc/dnsconfd/dnsconfd.conf", .empty, singleServerFile text key w, _, [w], ?_, rfl,
    List.mem_singleton.mpr rfl, List.mem_singleton.mpr rfl, by simp, by simp⟩
  exact List.mem_cons_self

/-- The configuration file takes every domain. -/
lemma parseConfigFile_single {net : Inet} {text : String} {address : SockAddr}
    (haddress : parseIpStr net text 0 = some address) (w : String) :
    ConfigFile.serverOfMapping net [("address", .scalar text), ("routing_domains", .sequence [w])] =
      .ok { ServerUri.initial with
        address := setDefaultPort address 53, routingDomains := [w] } ∧
    ConfigFile.parseConfigFile net (.single (singleServerFile text "routing_domains" w))
        "/etc/dnsconfd/dnsconfd.conf" .empty =
      some (.ok { RawConfig.empty with staticServers :=
        [{ ServerUri.initial with
          address := setDefaultPort address 53, routingDomains := [w] }] }) := by
  have hip : address ≠ .unspec := by
    rintro rfl
    exact absurd (isIp_of_parseIpStr haddress) (by decide)
  have hserver : ConfigFile.serverOfMapping net
      [("address", .scalar text), ("routing_domains", .sequence [w])] =
      .ok { ServerUri.initial with
        address := setDefaultPort address 53, routingDomains := [w] } := by
    simp [ConfigFile.serverOfMapping, List.foldlM_cons, ConfigFile.storeField,
      ConfigFile.storeServerField, ConfigFile.storeServerList, ConfigFile.ServerDraft.initial,
      ConfigFile.ServerDraft.complete, haddress, hip, bind, Except.bind, pure, Except.pure,
      ServerUri.initial]
  refine ⟨hserver, ?_⟩
  rw [ConfigFile.parseConfigFile_document rfl (by simp [singleServerFile])]
  simp [singleServerFile, List.foldlM_cons, ConfigFile.storeEntry, hserver, List.mapM_cons, bind,
    Except.bind, pure, Except.pure, RawConfig.empty]

/-- A dictionary is accepted if its domain is. -/
lemma decodeUpdateCall_single {p : Platform} {w idn : String}
    (hidn : domainToIdn p w = some idn) :
    parseServerDict p (singleDomainDict w) = .ok (loopbackServer idn) ∧
    decodeUpdateCall p (fun _ => false) [singleDomainDict w] 0 =
      .ok ([loopbackServer idn], .backup) := by
  have hserver : parseServerDict p (singleDomainDict w) = .ok (loopbackServer idn) := by
    have hsaved : saveDomains p [w] [] = .ok [idn] := by
      simp [saveDomains, appendConverted, hidn]
    have haddress : parseAddress p.inet (singleDomainDict w) .initial =
        .ok { ServerUri.initial with address := .inet loopbackAddress 0 } := rfl
    have hrouting : dictStringArray (singleDomainDict w) "routing_domains" = some [w] := rfl
    have hstrings : ∀ key, dictString (singleDomainDict w) key = none := by
      intro key
      simp only [dictString, dictValue, singleDomainDict]
      split_ifs <;> rfl
    have hint : ∀ key, dictInt32 (singleDomainDict w) key = none := by
      intro key
      simp only [dictInt32, dictValue, singleDomainDict]
      split_ifs <;> rfl
    have hboolean : dictBoolean (singleDomainDict w) "dnssec" = none := rfl
    have hsearch : dictStringArray (singleDomainDict w) "search_domains" = none := rfl
    have hnetworks : dictStringArray (singleDomainDict w) "networks" = none := rfl
    simp only [parseServerDict, haddress, keyTypeParser, List.foldlM_cons, FieldParser.run,
      hrouting, hstrings, hint, hboolean, hsearch, hnetworks, parsePresent, parseDomains, bind,
      Except.bind, List.foldlM_nil]
    simp only [ServerUri.initial, hsaved]
    rfl
  refine ⟨hserver, ?_⟩
  simp [decodeUpdateCall, Mode.ofUInt32, parseServers, hserver, isDuplicate, lowerWireless, bind,
    Except.bind]

/-- Where servers meet in one zone, `save_domains` keeps the domain as it is. -/
lemma eq_of_sharesZone {p : Platform} (hp : p.SortPermutes) {text : String} {address : SockAddr}
    (haddress : parseIpStr p.inet text 0 = some address) {w idn : String}
    (hidn : domainToIdn p w = some idn) (h : SharesZone p w) : idn = w := by
  obtain ⟨hserver, hconfig⟩ := parseConfigFile_single haddress w
  obtain ⟨hparsed, hdecode⟩ := decodeUpdateCall_single hidn
  obtain ⟨staticServer, table, key, servers, hstatic, htable, hlookup, hs, hd⟩ :=
    h _ _ _ _ _ _ hconfig (listsDomain_single p.inet text "routing_domains" w)
      ⟨_, _, _, _, singleDomainDict w, [w], _, hdecode, by simp, rfl, by simp, hparsed, rfl,
        by simp [lowerWireless]⟩
  obtain rfl := Except.ok.inj (hserver.symm.trans hstatic)
  have hmem := (ne_nil_of_lookup_serverListToHashTable hp htable hlookup).2
  have hkey : key = w := by
    simpa [ServerUri.tableDomains, ServerUri.initial] using ((hmem _).mp hs).2
  have hkey' : key = idn := by
    simpa [ServerUri.tableDomains, loopbackServer, ServerUri.initial, lowerWireless] using ((hmem _).mp hd).2
  exact hkey'.symm.trans hkey

/-- **Zones of static and dynamic servers.**  On a platform that reads some address, a domain is
treated alike by the two paths, so that servers which name it meet in one zone if D-Bus takes it,
and the configuration file rejects it if D-Bus does, if and only if it is not empty, has no two
dots in a row and is its own IDN form. -/
theorem domains_agree_iff (p : Platform) (hp : p.SortPermutes) {text : String} {address : SockAddr}
    (haddress : parseIpStr p.inet text 0 = some address) (w : String) :
    (((domainToIdn p w).isSome = true → SharesZone p w) ∧
      (domainToIdn p w = none → FileRejects p w)) ↔
    w ≠ "" ∧ ¬ "..".toList <:+: w.toList ∧ p.idn2LookupU8 w = some w := by
  constructor
  · rintro ⟨hshares, hrejects⟩
    cases hidn : domainToIdn p w with
    | none =>
      exact absurd (parseConfigFile_single haddress w).2
        (hrejects hidn _ _ "routing_domains" _ (Or.inl rfl) (listsDomain_single _ _ _ _) _)
    | some idn =>
      have hsame : idn = w := eq_of_sharesZone hp haddress hidn (hshares (by rw [hidn]; rfl))
      subst hsame
      unfold domainToIdn at hidn
      split_ifs at hidn with hempty hdots
      · rw [hempty] at hidn
        exact absurd (Option.some.inj hidn) (by decide)
      · exact ⟨hempty, hdots, hidn⟩
  · rintro ⟨hempty, hdots, hlookup⟩
    have hidn : domainToIdn p w = some w := by
      rw [domainToIdn, if_neg hempty, if_neg hdots, hlookup]
    refine ⟨fun _ => sharesZone_of_domainToIdn hp hidn, fun hnone => ?_⟩
    rw [hidn] at hnone
    cases hnone

/-- A platform with one domain that is not in IDN form. -/
def Platform.idna : Platform :=
  { Platform.plain with
    inet := .loopback
    idn2LookupU8 := fun w => some (if w = "bücher.example" then "xn--bcher-kva.example" else w) }

/-- The zone of a domain in IDN form is shared. -/
theorem domains_agree_ascii :
    (domainToIdn .idna "example.com").isSome = true ∧ SharesZone .idna "example.com" := by
  have hsome : (domainToIdn .idna "example.com").isSome = true := by decide
  have haddress : parseIpStr .loopback "127.0.0.1" 0 = some (.inet loopbackAddress 0) := rfl
  have hagree := (domains_agree_iff .idna (fun _ _ => List.perm_insertionSort _ _) haddress
    "example.com").mpr ⟨by decide, by decide, by decide⟩
  exact ⟨hsome, hagree.1 hsome⟩

/-- A static and a dynamic server of one domain are in the lists of two keys, and the configuration
file takes a domain that D-Bus does not. -/
theorem domains_disagree :
    ConfigFile.parseConfigFile .loopback
        (.single (singleServerFile "127.0.0.1" "routing_domains" "bücher.example"))
        "/etc/dnsconfd/dnsconfd.conf" .empty =
      some (.ok { RawConfig.empty with staticServers := [loopbackServer "bücher.example"] }) ∧
    decodeUpdateCall .idna (fun _ => false) [singleDomainDict "bücher.example"] 0 =
      .ok ([loopbackServer "xn--bcher-kva.example"], .backup) ∧
    (serverListToHashTable .idna
        [loopbackServer "bücher.example", loopbackServer "xn--bcher-kva.example"]).map
          (fun table => (table.lookup "bücher.example", table.lookup "xn--bcher-kva.example")) =
      some (some [loopbackServer "bücher.example"],
        some [loopbackServer "xn--bcher-kva.example"]) ∧
    ¬ SharesZone .idna "bücher.example" ∧
    domainToIdn .idna "a..b" = none ∧ ¬ FileRejects .idna "a..b" := by
  have haddress : parseIpStr .loopback "127.0.0.1" 0 = some (.inet loopbackAddress 0) := rfl
  have hidn : domainToIdn .idna "bücher.example" = some "xn--bcher-kva.example" := by decide
  refine ⟨(parseConfigFile_single haddress _).2, (decodeUpdateCall_single hidn).2, by decide,
    fun h => ?_, by decide, fun h => ?_⟩
  · have hsame := eq_of_sharesZone (fun _ _ => List.perm_insertionSort _ _) haddress hidn h
    exact absurd hsame (by decide)
  · exact h _ _ "routing_domains" _ (Or.inl rfl) (listsDomain_single _ _ _ _) _
      (parseConfigFile_single haddress _).2

end Dnsconfd
