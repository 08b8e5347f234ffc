import Dnsconfd.ConfigurationParsing.GlobalOptions
import Dnsconfd.DbusServer.Daemon

/-!
# Well-formed servers in every state

The two parsers of the daemon, for dictionaries on D-Bus and for the static servers of the
configuration file, accept well-formed servers only.  Nothing else brings servers into the context,
so all servers the daemon ever holds are well formed, and what is done with them can not fail: the
table of servers can be built, none of its lists is empty, and every address has a text
(`ServersSound`).  The condition is shown for every iteration of `state_transition`, which is where
servers are used, and for every state between two events.
-/

namespace Dnsconfd

open Library

/-! ## Servers from D-Bus -/

/-- `parse_address` completes the initial server. -/
lemma isParsed_parseAddress {net : Inet} {dict : VariantDict} {server : ServerUri}
    (h : parseAddress net dict .initial = .ok server) : IsParsed server := by
  have hinitial : ∀ address : SockAddr, address.isIp = true →
      IsParsed { ServerUri.initial with address := address } :=
    fun address haddress => ⟨haddress, show "".utf8ByteSize < ifNamSiz by decide, Or.inr rfl,
      by simp [ServerUri.initial], by simp [ServerUri.initial]⟩
  unfold parseAddress at h
  split at h
  · split at h
    · rename_i address hparse
      obtain rfl := Except.ok.inj h
      exact hinitial address (isIp_of_parseIpStr hparse)
    · cases h
  · split at h
    · cases h
    · split_ifs at h
      · obtain rfl := Except.ok.inj h
        exact hinitial _ rfl
      · obtain rfl := Except.ok.inj h
        exact hinitial _ rfl

/-- A parser that keeps a server well formed keeps it so if the field is missing. -/
lemma isParsed_parsePresent {α : Type} {value : Option α} {parser : α → ServerUri → ParseResult}
    {s s' : ServerUri} (hparser : ∀ v, parser v s = .ok s' → IsParsed s') (hs : IsParsed s)
    (h : parsePresent value parser s = .ok s') : IsParsed s' := by
  cases value with
  | none =>
    obtain rfl : s = s' := Except.ok.inj h
    exact hs
  | some v => exact hparser v h

/-- The texts that a loop converts and appends. -/
lemma mem_of_appendConverted {α : Type} {convert : String → Option α} {error : ParseError}
    {texts : List String} {acc result : List α}
    (h : appendConverted convert error texts acc = .ok result) {a : α} (ha : a ∈ result) :
    a ∈ acc ∨ ∃ text ∈ texts, convert text = some a := by
  rw [appendConverted_eq] at h
  cases hvalues : texts.mapM convert with
  | none => rw [hvalues] at h; cases h
  | some values =>
    rw [hvalues] at h
    obtain rfl := Except.ok.inj h
    rcases List.mem_append.mp ha with ha | ha
    · exact Or.inl ha
    · exact Or.inr (exists_of_mem_mapM hvalues ha)

/-- Every row of `key_type_parser` keeps a server well formed. -/
lemma isParsed_run {p : Platform} {dict : VariantDict} {field : FieldParser}
    (hfield : field ∈ keyTypeParser p) {s s' : ServerUri} (hs : IsParsed s)
    (h : field.run dict s = .ok s') : IsParsed s' := by
  simp only [keyTypeParser, List.mem_cons, List.not_mem_nil, or_false] at hfield
  rcases hfield with rfl | rfl | rfl | rfl | rfl | rfl | rfl | rfl | rfl | rfl <;>
    refine isParsed_parsePresent (fun v hv => ?_) hs h
  · -- the port
    unfold parsePort at hv
    split_ifs at hv
    obtain rfl := Except.ok.inj hv
    exact ⟨by simpa using hs.address, hs.interface, hs.dnssec, hs.protocol, hs.networks⟩
  · -- the priority
    obtain rfl := Except.ok.inj hv
    exact ⟨hs.address, hs.interface, hs.dnssec, hs.protocol, hs.networks⟩
  · -- the protocol
    unfold parseProtocol at hv
    split_ifs at hv with hprotocol
    obtain rfl := Except.ok.inj hv
    exact ⟨hs.address, hs.interface, hs.dnssec, hprotocol, hs.networks⟩
  · -- the interface
    unfold parseInterface at hv
    split_ifs at hv with hlength
    obtain rfl := Except.ok.inj hv
    exact ⟨hs.address, not_le.mp hlength, hs.dnssec, hs.protocol, hs.networks⟩
  · -- DNSSEC
    obtain rfl := Except.ok.inj hv
    cases v
    · exact hs.withDnssec (Or.inl rfl)
    · exact hs.withDnssec (Or.inr rfl)
  · -- the CA
    obtain rfl := Except.ok.inj hv
    exact hs.withNames
  · -- the name
    obtain rfl := Except.ok.inj hv
    exact hs.withNames
  · -- the routing domains
    obtain ⟨domains, -, hv⟩ := ok_of_bind hv
    obtain rfl := Except.ok.inj hv
    exact hs.withDomains
  · -- the search domains
    obtain ⟨domains, -, hv⟩ := ok_of_bind hv
    obtain rfl := Except.ok.inj hv
    exact hs.withDomains
  · -- the networks
    obtain ⟨networks, hnetworks, hv⟩ := ok_of_bind hv
    obtain rfl := Except.ok.inj hv
    refine ⟨hs.address, hs.interface, hs.dnssec, hs.protocol, fun network hnetwork => ?_⟩
    rcases mem_of_appendConverted hnetworks hnetwork with hold | ⟨text, -, htext⟩
    · exact hs.networks network hold
    · exact isCidr_of_networkAddressFromString htext

/-- With the defaults filled in nothing is missing. -/
lemma wellFormed_setDefaults {s : ServerUri} (hs : IsParsed s) : (setDefaults s).WellFormed where
  address := by simpa [setDefaults] using hs.address
  interface := hs.interface
  dnssec := hs.dnssec
  protocol := hs.protocol
  networks := hs.networks
  port := by
    refine port_setDefaultPort_ne_zero hs.address ?_
    split <;> decide
  routingDomains := by
    simp only [setDefaults]
    split
    · simp
    · assumption

/-- Every dictionary that is accepted describes a well-formed server. -/
theorem wellFormed_parseServerDict {p : Platform} {dict : VariantDict} {s : ServerUri}
    (h : parseServerDict p dict = .ok s) : s.WellFormed := by
  obtain ⟨addressed, haddress, h⟩ := ok_of_bind h
  obtain ⟨parsed, hfields, h⟩ := ok_of_bind h
  obtain rfl := Except.ok.inj h
  have hparsed : IsParsed parsed := foldlM_ok_invariant
    (fun field hfield _ _ hs hrun => isParsed_run hfield hs hrun)
    (isParsed_parseAddress haddress) hfields
  exact wellFormed_setDefaults hparsed

/-- A lower priority does not matter. -/
lemma wellFormed_lowerWireless {isWireless : String → Bool} {s : ServerUri} (hs : s.WellFormed) :
    (lowerWireless isWireless s).WellFormed := by
  unfold lowerWireless
  split
  · exact ⟨⟨hs.address, hs.interface, hs.dnssec, hs.protocol, hs.networks⟩, hs.port,
      hs.routingDomains⟩
  · exact hs

/-- An Update call that is accepted brings well-formed servers. -/
theorem wellFormed_parseServers {p : Platform} {isWireless : String → Bool}
    {dicts : List VariantDict} {parsed servers : List ServerUri}
    (hparsed : ∀ s ∈ parsed, s.WellFormed)
    (h : parseServers p isWireless dicts parsed = .ok servers) : ∀ s ∈ servers, s.WellFormed := by
  induction dicts generalizing parsed with
  | nil =>
    obtain rfl := Except.ok.inj h
    exact hparsed
  | cons dict dicts ih =>
    obtain ⟨server, hserver, h⟩ := ok_of_bind h
    split at h
    · exact ih hparsed h
    · refine ih (fun s hs => ?_) h
      rcases List.mem_append.mp hs with hs | hs
      · exact hparsed s hs
      · rw [List.mem_singleton.mp hs]
        exact wellFormed_lowerWireless (wellFormed_parseServerDict hserver)

lemma wellFormed_decodeUpdateCall {p : Platform} {isWireless : String → Bool}
    {servers : List VariantDict} {mode : UInt32} {parsed : List ServerUri} {mode' : Mode}
    (h : decodeUpdateCall p isWireless servers mode = .ok (parsed, mode')) :
    ∀ s ∈ parsed, s.WellFormed := by
  unfold decodeUpdateCall at h
  split at h
  · cases h
  · split at h
    · cases h
    · rename_i hservers
      cases h
      exact wellFormed_parseServers (by simp) hservers

/-! ## Servers in the context -/

/-- The fields of the context that hold servers. -/
structure ServerFields where
  current : List ServerUri
  new : List ServerUri
  all : List ServerUri
  table : Option ServerTable

def Context.serverFields (ctx : Context) : ServerFields where
  current := ctx.currentDynamicServers
  new := ctx.newDynamicServers
  all := ctx.allServers
  table := ctx.currentDomainToServers

variable {p : Platform} {config : Config}

/-- An edge leaves all servers alone, or it joins the static servers with the dynamic ones, those
in use or those that have just been received. -/
lemma Edge.serverFields {o : Outcomes} {ctx : Context} {event : FsmEvent} {r : ActionResult}
    (h : Edge p config o ctx event r) :
    r.ctx.serverFields = ctx.serverFields ∨
      r.ctx.serverFields = (updateContext p config ctx).serverFields ∨
      r.ctx.serverFields = (updateContext p config (setDynamicServers ctx)).serverFields := by
  cases h with
  | refresh hs => exact Or.inr (Or.inr rfl)
  | kickoff hs hn =>
    rw [fsmStartingEventKickoff_ctx]
    exact Or.inr (Or.inl rfl)
  | updateRunning hs =>
    rw [ActionResult.enter, setResolvConf_ctx]
    exact Or.inr (Or.inr rfl)
  | resolvConfSet hs =>
    rcases updateDnsManager_cases p config o.update ctx with ⟨_, _, -, hr⟩ | ⟨_, _, -, -, hr⟩ <;>
      rw [hr] <;> exact Or.inl rfl
  | startJobDone hs =>
    rw [setResolvConf_ctx]
    exact Or.inl rfl
  | startJob hs | stopJob hs =>
    simp only [ActionResult.enter, submitStopJob, setServiceStatus_ctx]
    exact Or.inl rfl
  | resolvConfFailed hs =>
    rw [ActionResult.enter, submitStopJob, setServiceStatus_ctx, setExitCode_eq]
    exact Or.inl rfl
  | updateFailed hs =>
    rw [ActionResult.enter, revertResolvConf_ctx, setExitCode_eq]
    exact Or.inl rfl
  | stopRunning hs =>
    rw [ActionResult.enter, revertResolvConf_ctx]
    exact Or.inl rfl
  | startJobFailed hs =>
    rw [setExitCode_eq]
    exact Or.inl rfl
  | ignored hs | quit hs | abandon hs | startJobSubmitted hs | updated hs | stopJobSubmitted hs =>
    exact Or.inl rfl

/-- All servers are well formed, and the table is that of all servers. -/
structure HoldsWellFormed (p : Platform) (fields : ServerFields) : Prop where
  current : ∀ s ∈ fields.current, s.WellFormed
  new : ∀ s ∈ fields.new, s.WellFormed
  all : ∀ s ∈ fields.all, s.WellFormed
  table : ∀ table, fields.table = some table → serverListToHashTable p fields.all = some table

namespace HoldsWellFormed

variable {ctx : Context}

/-- Servers that have been received are taken over. -/
lemma setDynamicServers (h : HoldsWellFormed p ctx.serverFields) :
    HoldsWellFormed p (setDynamicServers ctx).serverFields where
  current := h.new
  new := by simp [Context.serverFields, Dnsconfd.setDynamicServers]
  all := h.all
  table := h.table

/-- Static servers join the dynamic ones. -/
lemma updateContext (hstatic : ∀ s ∈ config.staticServers, s.WellFormed)
    (h : HoldsWellFormed p ctx.serverFields) :
    HoldsWellFormed p (updateContext p config ctx).serverFields where
  current := h.current
  new := h.new
  all := by
    intro s hs
    rcases List.mem_append.mp hs with hs | hs
    · exact hstatic s hs
    · exact h.current s hs
  table := fun _ htable => htable

lemma edge (hstatic : ∀ s ∈ config.staticServers, s.WellFormed)
    (h : HoldsWellFormed p ctx.serverFields) {o : Outcomes} {event : FsmEvent} {r : ActionResult}
    (hedge : Edge p config o ctx event r) : HoldsWellFormed p r.ctx.serverFields := by
  rcases hedge.serverFields with heq | heq | heq
  · rw [heq]
    exact h
  · rw [heq]
    exact h.updateContext hstatic
  · rw [heq]
    exact h.setDynamicServers.updateContext hstatic

/-- The table of the servers at hand can be built. -/
lemma updateContext_isSome (hstatic : ∀ s ∈ config.staticServers, s.WellFormed)
    (h : HoldsWellFormed p ctx.serverFields) :
    (Dnsconfd.updateContext p config ctx).currentDomainToServers.isSome = true := by
  apply serverListToHashTable_isSome p
  intro s hs
  exact ((h.updateContext hstatic).all s hs).networks_isIp

end HoldsWellFormed

/-! ## Every run -/

/-- What the daemon does with servers can not fail in a context: all servers are well formed; the
table can be built again, with the dynamic servers in use or with those just received; no list of
the table at hand is empty; and every address has a text. -/
structure ServersSound (p : Platform) (config : Config) (ctx : Context) : Prop where
  wellFormed : ∀ s ∈ ctx.allServers, s.WellFormed
  rebuilt : (updateContext p config ctx).currentDomainToServers.isSome = true
  refreshed :
    (updateContext p config (setDynamicServers ctx)).currentDomainToServers.isSome = true
  lists : ∀ table, ctx.currentDomainToServers = some table →
    ∀ domain servers, table.lookup domain = some servers →
      servers ≠ [] ∧ ∀ s ∈ servers, (ipToStr p.inet s.address).isSome = true
  networks : ∀ s ∈ ctx.allServers, ∀ network ∈ s.networks,
    (ipToStr p.inet network.address).isSome = true
  listenAddress : (ipToStr p.inet config.listenAddress).isSome = true

lemma HoldsWellFormed.serversSound (hp : p.SortPermutes)
    (hstatic : ∀ s ∈ config.staticServers, s.WellFormed) (hlisten : config.listenAddress.isIp = true)
    {ctx : Context} (h : HoldsWellFormed p ctx.serverFields) : ServersSound p config ctx where
  wellFormed := h.all
  rebuilt := h.updateContext_isSome hstatic
  refreshed := h.setDynamicServers.updateContext_isSome hstatic
  lists := by
    intro table htable domain servers hlookup
    obtain ⟨hne, hmem⟩ := ne_nil_of_lookup_serverListToHashTable hp (h.table table htable) hlookup
    refine ⟨hne, fun s hs => ipToStr_isSome p.inet ?_⟩
    exact (h.all s ((hmem s).mp hs).1).address
  networks := by
    intro s hs network hnetwork
    exact ipToStr_isSome p.inet ((h.all s hs).networks_isIp network hnetwork)
  listenAddress := ipToStr_isSome p.inet hlisten

/-- From well-formed servers an input leads to iterations with well-formed servers only. -/
lemma HoldsWellFormed.iterationsMeet (hstatic : ∀ s ∈ config.staticServers, s.WellFormed)
    {d : Daemon} (h : HoldsWellFormed p d.ctx.serverFields) (i : Input) :
    IterationsMeet p config (fun m => HoldsWellFormed p m.ctx.serverFields) d i := by
  refine iterationsMeet_of_edge (fun _ _ _ _ _ hm hedge => hm.edge hstatic hedge)
    (fun _ _ _ => h) ?_ i
  intro isWireless servers mode parsed mode' hdecode
  exact ⟨h.current, wellFormed_decodeUpdateCall hdecode, h.all, h.table⟩

/-- Small steps keep servers well formed. -/
lemma HoldsWellFormed.micro (hstatic : ∀ s ∈ config.staticServers, s.WellFormed) {a b : Moment}
    (h : HoldsWellFormed p a.ctx.serverFields)
    (hstep : Micro p config (fun m => HoldsWellFormed p m.ctx.serverFields) a b) :
    HoldsWellFormed p b.ctx.serverFields := by
  cases hstep with
  | parsed servers mode hok => exact hok
  | edge hok hedge => exact h.edge hstatic hedge
  | receive | refused | skipped | replied | rejected | reloadReplied | nameLost => exact h

/-- Well-formed servers are kept by every run, in each of its iterations and between them. -/
lemma holdsWellFormed_run (hstatic : ∀ s ∈ config.staticServers, s.WellFormed) (is : List Input) :
    RunMeets p config (fun m => HoldsWellFormed p m.ctx.serverFields) is ∧
      HoldsWellFormed p ((daemon p config).run is).ctx.serverFields := by
  have hinitial : HoldsWellFormed p Context.initial.serverFields :=
    ⟨by simp [Context.serverFields, Context.initial], by simp [Context.serverFields, Context.initial],
      by simp [Context.serverFields, Context.initial], by simp [Context.serverFields, Context.initial]⟩
  exact runMeets_and_invariant (J := fun m => HoldsWellFormed p m.ctx.serverFields)
    (fun d i hd => hd.iterationsMeet hstatic i) (fun _ _ ha hstep => ha.micro hstatic hstep)
    hinitial is

/-- The static servers of an accepted configuration are well formed and there is an address to
listen on. -/
lemma toConfig_of_parseConfiguration {net : Inet} {address : Vector UInt8 4}
    (hnet : net.pton4 "127.0.0.1" = some address) {files : ConfigFile.Files}
    {getenv : String → Option String} {options : List CommandLineOption} {raw : RawConfig}
    (h : parseConfiguration net files getenv options = some (.ok raw)) :
    (∀ s ∈ raw.toConfig.staticServers, s.WellFormed) ∧ raw.toConfig.listenAddress.isIp = true := by
  obtain ⟨config, file, houter, -, hfile, rfl⟩ := parseConfiguration_ok h
  refine ⟨?_, isIp_listenAddress_withDefaults hnet _⟩
  have hservers := (lists_of_parseConfiguration houter file).1
  intro s hs
  rw [RawConfig.toConfig, hservers] at hs
  exact ConfigFile.parseConfigFile_wellFormed (by simp [RawConfig.empty]) hfile s hs

/-- Servers are well formed everywhere.  Whatever the configuration and the inputs were, in every
iteration of `state_transition` and in every state between two events all servers are well formed,
and so the table of servers can always be built, none of its lists is empty, and no address is
without a text.  Assumed of the libraries: `g_list_sort` rearranges its list, and `inet_pton` reads
the loopback address. -/
theorem servers_wellFormed_everywhere (p : Platform) (hp : p.SortPermutes)
    (hnet : p.inet.pton4 "127.0.0.1" = some #v[127, 0, 0, 1]) (files : ConfigFile.Files)
    (getenv : String → Option String) (options : List CommandLineOption) (raw : RawConfig)
    (hraw : parseConfiguration p.inet files getenv options = some (.ok raw)) (is : List Input) :
    RunMeets p raw.toConfig (fun m => ServersSound p raw.toConfig m.ctx) is ∧
      ServersSound p raw.toConfig ((daemon p raw.toConfig).run is).ctx := by
  obtain ⟨hstatic, hlisten⟩ := toConfig_of_parseConfiguration hnet hraw
  obtain ⟨hmeets, hrun⟩ := holdsWellFormed_run (p := p) hstatic is
  refine ⟨hmeets.mono fun m hm => ?_, ?_⟩
  · exact hm.serversSound hp hstatic hlisten
  · exact hrun.serversSound hp hstatic hlisten

/-- A server from D-Bus and one from the configuration file. -/
theorem servers_wellFormed_two_sources :
    ∃ raw, parseConfiguration .loopback
        (.single [.staticServers [[("address", .scalar "127.0.0.1")]]]) (fun _ => none) [] =
          some (.ok raw) ∧
      ((daemon ⟨.loopback, some, fun _ servers => servers⟩ raw.toConfig).run
        [.ok (.updateCall [[("address", .byteString [192, 0, 2, 1])]] 0)]).ctx.allServers.length =
          2 ∧
      ServersSound ⟨.loopback, some, fun _ servers => servers⟩ raw.toConfig
        ((daemon ⟨.loopback, some, fun _ servers => servers⟩ raw.toConfig).run
          [.ok (.updateCall [[("address", .byteString [192, 0, 2, 1])]] 0)]).ctx := by
  refine ⟨_, rfl, ?_, ?_⟩
  · decide
  · exact (servers_wellFormed_everywhere ⟨.loopback, some, fun _ servers => servers⟩
      (fun _ _ => .refl _) rfl
      (.single [.staticServers [[("address", .scalar "127.0.0.1")]]]) (fun _ => none) [] _ rfl _).2

end Dnsconfd
