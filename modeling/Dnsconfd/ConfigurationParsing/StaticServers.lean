import Dnsconfd.ConfigurationParsing.ConfigFile

/-!
# The static servers of the configuration file

What one iteration of each parser of the configuration file can do, and from that, with the rule for
loops over a stream, what the rest of the daemon needs to know of the static servers: whatever the
files are, the servers of a configuration that is accepted are well formed
(`parseConfigFile_wellFormed`).
-/

namespace Dnsconfd.ConfigFile

open Library

/-! ## What iterations do -/

/-- An iteration over a list of scalars keeps the list or appends what it converts. -/
lemma scalarsBody_continued {α : Type} {convert : String → Option α} {l l' : List α}
    {event : YamlEvent} {rest rest' : List YamlEvent}
    (h : scalarsBody convert l event rest = some (.continued l' rest')) :
    rest' = rest ∧ (l' = l ∨ ∃ value a, convert value = some a ∧ l' = l ++ [a]) := by
  cases event with
  | scalar value =>
    simp only [scalarsBody] at h
    split at h
    · cases h
    · rename_i a ha
      cases h
      exact ⟨rfl, Or.inr ⟨value, a, ha, rfl⟩⟩
  | failure => cases h
  | sequenceEnd => cases h
  | sequenceStart | mappingStart | mappingEnd | streamEnd | other =>
    cases h
    exact ⟨rfl, Or.inl rfl⟩

/-- A list of scalars ends at the end of a sequence. -/
lemma scalarsBody_finished {α : Type} {convert : String → Option α} {l l' : List α}
    {event : YamlEvent} {rest rest' : List YamlEvent}
    (h : scalarsBody convert l event rest = some (.finished l' rest')) :
    l' = l ∧ rest' = rest := by
  cases event with
  | scalar value =>
    simp only [scalarsBody] at h
    split at h <;> cases h
  | sequenceEnd =>
    cases h
    exact ⟨rfl, rfl⟩
  | failure | sequenceStart | mappingStart | mappingEnd | streamEnd | other => cases h

lemma follows_scalarsBody {α : Type} (convert : String → Option α) :
    Follows (scalarsBody convert) := by
  rintro l event rest l' rest' (h | h)
  · rw [(scalarsBody_continued h).1]
  · rw [(scalarsBody_finished h).2]

lemma consumes_scalarsBody {α : Type} (convert : String → Option α) :
    Consumes (scalarsBody convert) :=
  (follows_scalarsBody convert).consumes

/-- A property of all elements of a list holds after scalars are read if it holds before and of
whatever a text is converted to. -/
lemma forall_mem_of_readAll_scalars {α : Type} {convert : String → Option α} {P : α → Prop}
    (hP : ∀ value a, convert value = some a → P a) {events rest : List YamlEvent} {l l' : List α}
    (hl : ∀ a ∈ l, P a) (h : readAll (scalarsBody convert) events l = some (.ok (l', rest))) :
    ∀ a ∈ l', P a := by
  refine readAll_rule (P := fun l => ∀ a ∈ l, P a) (Q := fun l => ∀ a ∈ l, P a) ?_ ?_ hl h
  · intro l event rest l' rest' hl hturn
    rcases (scalarsBody_continued hturn).2 with rfl | ⟨value, a, ha, rfl⟩
    · exact hl
    · intro b hb
      rcases List.mem_append.mp hb with hb | hb
      · exact hl b hb
      · rw [List.mem_singleton.mp hb]
        exact hP value a ha
  · intro l event rest l' rest' hl hturn
    rw [(scalarsBody_finished hturn).1]
    exact hl

/-- What an iteration over static servers can do: it reads a list into the current server, or it
reads one event only. -/
lemma staticServersBody_continued {net : Inet} {s s' : StaticServersState} {event : YamlEvent}
    {rest rest' : List YamlEvent}
    (h : staticServersBody net s event rest = some (.continued s' rest')) :
    (∃ draft key, s.currentServer = some draft ∧
      readServerList net s draft key rest = some (.continued s' rest')) ∨
    (rest' = rest ∧
      ((∃ key, s' = { s with currentKey := key }) ∨
        s' = { s with currentServer := some .initial } ∨
        (∃ draft, s.currentServer = some draft ∧ draft.server.address ≠ .unspec ∧
          s' = { s with staticServers := s.staticServers ++ [draft.complete],
                        currentServer := none }) ∨
        ∃ draft key value draft', s.currentServer = some draft ∧
          storeServerField net key value draft = .ok draft' ∧ s' = s.stored draft')) := by
  cases event with
  | failure => cases h
  | sequenceEnd => cases h
  | streamEnd | other =>
    cases h
    exact Or.inr ⟨rfl, Or.inl ⟨s.currentKey, rfl⟩⟩
  | sequenceStart =>
    simp only [staticServersBody] at h
    split at h
    · rename_i draft key hdraft hkey
      exact Or.inl ⟨draft, key, hdraft, h⟩
    · cases h
  | mappingStart =>
    simp only [staticServersBody] at h
    split at h
    · cases h
    · cases h
      exact Or.inr ⟨rfl, Or.inr (Or.inl rfl)⟩
  | mappingEnd =>
    simp only [staticServersBody] at h
    split at h
    · cases h
      exact Or.inr ⟨rfl, Or.inl ⟨s.currentKey, rfl⟩⟩
    · rename_i draft hdraft
      split at h
      · cases h
      · rename_i haddress
        cases h
        exact Or.inr ⟨rfl, Or.inr (Or.inr (Or.inl ⟨draft, hdraft, haddress, rfl⟩))⟩
  | scalar value =>
    simp only [staticServersBody] at h
    split at h
    · cases h
      exact Or.inr ⟨rfl, Or.inl ⟨some value, rfl⟩⟩
    · rename_i key hkey
      split at h
      · cases h
        exact Or.inr ⟨rfl, Or.inl ⟨none, rfl⟩⟩
      · rename_i draft hdraft
        split at h
        · cases h
        · rename_i draft' hstore
          cases h
          exact Or.inr ⟨rfl, Or.inr (Or.inr (Or.inr
            ⟨draft, key, value, draft', hdraft, hstore, rfl⟩))⟩

/-- The static servers end at the end of a sequence. -/
lemma staticServersBody_finished {net : Inet} {s s' : StaticServersState} {event : YamlEvent}
    {rest rest' : List YamlEvent}
    (h : staticServersBody net s event rest = some (.finished s' rest')) :
    s' = s ∧ rest' = rest := by
  cases event with
  | sequenceEnd =>
    cases h
    exact ⟨rfl, rfl⟩
  | failure | streamEnd | other => cases h
  | sequenceStart =>
    simp only [staticServersBody] at h
    split at h
    · unfold readServerList at h
      split_ifs at h
      all_goals first | exact absurd h Turn.afterRead_ne_finished | cases h
    · cases h
  | mappingStart =>
    simp only [staticServersBody] at h
    split at h <;> cases h
  | mappingEnd =>
    simp only [staticServersBody] at h
    split at h
    · cases h
    · split at h <;> cases h
  | scalar value =>
    simp only [staticServersBody] at h
    split at h
    · cases h
    · split at h
      · cases h
      · split at h <;> cases h

/-- What a list in a server can be: domains or networks, read into the server. -/
lemma readServerList_continued {net : Inet} {s s' : StaticServersState} {draft : ServerDraft}
    {key : String} {rest rest' : List YamlEvent}
    (h : readServerList net s draft key rest = some (.continued s' rest')) :
    (∃ routing search l, parseDomains rest l = some (.ok (if key = "routing_domains" then routing
        else search, rest')) ∧
      s' = s.stored { draft with server := { draft.server with routingDomains := routing,
                                                               searchDomains := search } }) ∨
    ∃ networks, parseNetworks net rest draft.server.networks = some (.ok (networks, rest')) ∧
      s' = s.stored { draft with server := { draft.server with networks := networks } } := by
  unfold readServerList at h
  split_ifs at h with hrouting hsearch hnetworks
  · obtain ⟨l, hread, rfl⟩ := Turn.afterRead_eq_continued h
    exact Or.inl ⟨l, draft.server.searchDomains, _, by rwa [if_pos hrouting], rfl⟩
  · obtain ⟨l, hread, rfl⟩ := Turn.afterRead_eq_continued h
    exact Or.inl ⟨draft.server.routingDomains, l, _, by rwa [if_neg hrouting], rfl⟩
  · obtain ⟨l, hread, rfl⟩ := Turn.afterRead_eq_continued h
    exact Or.inr ⟨l, hread, rfl⟩
  · cases h

lemma follows_staticServersBody (net : Inet) : Follows (staticServersBody net) := by
  rintro s event rest s' rest' (h | h)
  · rcases staticServersBody_continued h with ⟨draft, key, -, hlist⟩ | ⟨rfl, -⟩
    · rcases readServerList_continued hlist with ⟨_, _, _, hread, -⟩ | ⟨_, hread, -⟩
      · exact suffix_of_readAll (follows_scalarsBody _) hread
      · exact suffix_of_readAll (follows_scalarsBody _) hread
    · exact List.suffix_refl _
  · rw [(staticServersBody_finished h).2]

lemma consumes_staticServersBody (net : Inet) : Consumes (staticServersBody net) :=
  (follows_staticServersBody net).consumes

/-- An iteration over zones reads one event. -/
lemma follows_rpzZonesBody : Follows rpzZonesBody := by
  intro s event rest s' rest' h
  have hrest : rest' = rest := by
    unfold rpzZonesBody at h
    grind
  rw [hrest]

lemma consumes_rpzZonesBody : Consumes rpzZonesBody :=
  follows_rpzZonesBody.consumes

/-- What a list in a file can be: static servers, zones or paths, or the list of an option that is
not one of these and whose scalars are then read one by one. -/
lemma readOptionList_continued {net : Inet} {s s' : FileState} {key : String}
    {rest rest' : List YamlEvent}
    (h : readOptionList net s key rest = some (.continued s' rest')) :
    (∃ parsed, parseStaticServers net rest s.config.staticServers = some (.ok (parsed, rest')) ∧
      s' = { s with config := { s.config with staticServers := parsed.staticServers },
                    currentKey := none }) ∨
    (∃ parsed, parseRpzZones rest s.config.rpzZones = some (.ok (parsed, rest')) ∧
      s' = { s with config := { s.config with rpzZones := parsed.rpzZones },
                    currentKey := none }) ∨
    (∃ paths, parseIncludeList rest s.includePaths = some (.ok (paths, rest')) ∧
      s' = { s with includePaths := paths, currentKey := none }) ∨
    (s' = s ∧ rest' = rest) := by
  unfold readOptionList at h
  split_ifs at h
  · exact Or.inl (Turn.afterRead_eq_continued h)
  · exact Or.inr (Or.inl (Turn.afterRead_eq_continued h))
  · exact Or.inr (Or.inr (Or.inl (Turn.afterRead_eq_continued h)))
  · cases h
    exact Or.inr (Or.inr (Or.inr ⟨rfl, rfl⟩))

/-- What an iteration over a file can do: it reads a list, or it reads one event only, which stores
an option at most. -/
lemma fileBody_continued {net : Inet} {s s' : FileState} {event : YamlEvent}
    {rest rest' : List YamlEvent} (h : fileBody net s event rest = some (.continued s' rest')) :
    (∃ key, readOptionList net s key rest = some (.continued s' rest')) ∨
    (rest' = rest ∧
      ((∃ key depth, s' = { s with currentKey := key, depth := depth }) ∨
        ∃ key value stored, storeOption net key value s = .ok stored ∧
          s' = { stored with currentKey := none })) := by
  cases event with
  | failure => cases h
  | streamEnd => cases h
  | sequenceEnd | mappingEnd | other =>
    cases h
    exact Or.inr ⟨rfl, Or.inl ⟨s.currentKey, s.depth, rfl⟩⟩
  | mappingStart =>
    simp only [fileBody] at h
    split at h
    · cases h
    · cases h
      exact Or.inr ⟨rfl, Or.inl ⟨s.currentKey, s.depth + 1, rfl⟩⟩
  | sequenceStart =>
    simp only [fileBody] at h
    split at h
    · cases h
      exact Or.inr ⟨rfl, Or.inl ⟨s.currentKey, s.depth, rfl⟩⟩
    · rename_i key hkey
      exact Or.inl ⟨key, h⟩
  | scalar value =>
    simp only [fileBody] at h
    split at h
    · cases h
      exact Or.inr ⟨rfl, Or.inl ⟨some value, s.depth, rfl⟩⟩
    · rename_i key hkey
      split at h
      · cases h
      · rename_i stored hstore
        cases h
        exact Or.inr ⟨rfl, Or.inr ⟨key, value, stored, hstore, rfl⟩⟩

/-- A file ends at the end of the stream. -/
lemma fileBody_finished {net : Inet} {s s' : FileState} {event : YamlEvent}
    {rest rest' : List YamlEvent} (h : fileBody net s event rest = some (.finished s' rest')) :
    s' = s ∧ rest' = rest ∧ event = .streamEnd := by
  cases event with
  | streamEnd =>
    cases h
    exact ⟨rfl, rfl, rfl⟩
  | failure | sequenceEnd | mappingEnd | other => cases h
  | mappingStart =>
    simp only [fileBody] at h
    split at h <;> cases h
  | sequenceStart =>
    simp only [fileBody] at h
    split at h
    · cases h
    · unfold readOptionList at h
      split_ifs at h
      all_goals first | exact absurd h Turn.afterRead_ne_finished | cases h
  | scalar value =>
    simp only [fileBody] at h
    split at h
    · cases h
    · split at h <;> cases h

lemma follows_fileBody (net : Inet) : Follows (fileBody net) := by
  rintro s event rest s' rest' (h | h)
  · rcases fileBody_continued h with ⟨key, hlist⟩ | ⟨rfl, -⟩
    · rcases readOptionList_continued hlist with ⟨_, hread, -⟩ | ⟨_, hread, -⟩ | ⟨_, hread, -⟩ |
        ⟨-, rfl⟩
      · exact suffix_of_readAll (follows_staticServersBody net) hread
      · exact suffix_of_readAll follows_rpzZonesBody hread
      · exact suffix_of_readAll (follows_scalarsBody _) hread
      · exact List.suffix_refl _
    · exact List.suffix_refl _
  · rw [(fileBody_finished h).2.1]

lemma consumes_fileBody (net : Inet) : Consumes (fileBody net) :=
  (follows_fileBody net).consumes

/-! ## Static servers are well formed -/

/-- A draft that is well formed as soon as it has an address. -/
def ServerDraft.IsSound (draft : ServerDraft) : Prop :=
  ∀ address : SockAddr, address.isIp = true → IsParsed { draft.server with address := address }

lemma isSound_initial : ServerDraft.initial.IsSound :=
  fun address haddress =>
    ⟨haddress, (by decide : (0 : ℕ) < 16), Or.inr rfl, nofun, by simp [ServerDraft.initial,
      ServerUri.initial]⟩

/-- Every scalar field leaves a sound draft. -/
lemma ServerDraft.IsSound.storeServerField {net : Inet} {key value : String}
    {draft draft' : ServerDraft} (h : draft.IsSound)
    (hstore : storeServerField net key value draft = .ok draft') : draft'.IsSound := by
  unfold ConfigFile.storeServerField at hstore
  split_ifs at hstore with hname hprotocol hend haddress hport hdnssec hvalue hpriority
  · cases hstore
    exact fun a ha => (h a ha).withNames
  · cases hstore
    exact fun a ha =>
      ⟨ha, (h a ha).interface, (h a ha).dnssec, hend, (h a ha).networks⟩
  · split at hstore
    · cases hstore
    · cases hstore
      exact fun a ha => h a ha
  · split at hstore
    · cases hstore
    · cases hstore
      exact fun a ha => h a ha
  · cases hstore
    exact fun a ha => (h a ha).withDnssec (Or.inl rfl)
  · cases hstore
    exact h
  · split at hstore
    · cases hstore
    · cases hstore
      exact fun a ha =>
        ⟨ha, (h a ha).interface, (h a ha).dnssec, (h a ha).protocol, (h a ha).networks⟩

/-- Every list leaves a sound draft. -/
lemma isSound_of_readServerList {net : Inet} {s s' : StaticServersState} {draft : ServerDraft}
    {key : String} {rest rest' : List YamlEvent} (h : draft.IsSound)
    (hlist : readServerList net s draft key rest = some (.continued s' rest')) :
    ∃ draft', draft'.IsSound ∧ s' = s.stored draft' := by
  rcases readServerList_continued hlist with ⟨routing, search, l, -, rfl⟩ | ⟨networks, hread, rfl⟩
  · refine ⟨_, ?_, rfl⟩
    exact fun a ha => (h a ha).withDomains
  · have hcidr : ∀ network ∈ networks, network.IsCidr := by
      refine forall_mem_of_readAll_scalars
        (fun value network hvalue => isCidr_of_networkAddressFromString hvalue) ?_ hread
      exact (h (.inet documentationAddress 0) rfl).networks
    refine ⟨_, ?_, rfl⟩
    exact fun a ha => ⟨ha, (h a ha).interface, (h a ha).dnssec, (h a ha).protocol, hcidr⟩

/-- A sound draft with an address becomes a well-formed server. -/
lemma ServerDraft.IsSound.wellFormed_complete {draft : ServerDraft} (h : draft.IsSound)
    (haddress : draft.server.address ≠ .unspec) : draft.complete.WellFormed := by
  have hip : draft.server.address.isIp = true := by
    cases hfamily : draft.server.address with
    | unspec => exact absurd hfamily haddress
    | inet a port => rfl
    | inet6 a port => rfl
  have hport : (if draft.server.protocol ≠ .tls then 53 else 853 : UInt16) ≠ 0 := by
    split <;> decide
  have hsound := h (setDefaultPort draft.server.address
    (if draft.server.protocol ≠ .tls then 53 else 853)) (by simpa using hip)
  refine ⟨hsound.withDomains, port_setDefaultPort_ne_zero hip hport, ?_⟩
  simp only [ServerDraft.complete]
  split
  · simp
  · assumption

/-- The invariant of `parse_static_servers`. -/
structure StaticServersState.IsSound (s : StaticServersState) : Prop where
  servers : ∀ server ∈ s.staticServers, server.WellFormed
  current : ∀ draft ∈ s.currentServer, draft.IsSound

lemma StaticServersState.IsSound.stored {s : StaticServersState} (h : s.IsSound)
    {draft : ServerDraft} (hdraft : draft.IsSound) : (s.stored draft).IsSound :=
  ⟨h.servers, fun d hd => by
    obtain rfl := Option.some.inj hd
    exact hdraft⟩

lemma StaticServersState.IsSound.continued {net : Inet} {s s' : StaticServersState}
    {event : YamlEvent} {rest rest' : List YamlEvent} (h : s.IsSound)
    (hturn : staticServersBody net s event rest = some (.continued s' rest')) : s'.IsSound := by
  rcases staticServersBody_continued hturn with ⟨draft, key, hdraft, hlist⟩ |
    ⟨-, ⟨key, rfl⟩ | rfl | ⟨draft, hdraft, haddress, rfl⟩ |
      ⟨draft, key, value, draft', hdraft, hstore, rfl⟩⟩
  · obtain ⟨draft', hsound, rfl⟩ := isSound_of_readServerList (h.current draft hdraft) hlist
    exact h.stored hsound
  · exact ⟨h.servers, h.current⟩
  · exact ⟨h.servers, fun d hd => by
      obtain rfl := Option.some.inj hd
      exact isSound_initial⟩
  · refine ⟨fun server hserver => ?_, nofun⟩
    rcases List.mem_append.mp hserver with hserver | hserver
    · exact h.servers server hserver
    · rw [List.mem_singleton.mp hserver]
      exact (h.current draft hdraft).wellFormed_complete haddress
  · exact h.stored ((h.current draft hdraft).storeServerField hstore)

/-- `parse_static_servers` adds well-formed servers only. -/
theorem parseStaticServers_wellFormed {net : Inet} {events rest : List YamlEvent}
    {staticServers : List ServerUri} {parsed : StaticServersState}
    (hservers : ∀ server ∈ staticServers, server.WellFormed)
    (h : parseStaticServers net events staticServers = some (.ok (parsed, rest))) :
    ∀ server ∈ parsed.staticServers, server.WellFormed := by
  have hsound : parsed.IsSound :=
    readAll_rule (fun _ _ _ _ _ hs hturn => hs.continued hturn)
      (fun _ _ _ _ _ hs hturn => (staticServersBody_finished hturn).1 ▸ hs)
      ⟨hservers, nofun⟩ h
  exact hsound.servers

/-- The key of a boolean option in the file. -/
def booleanKey : BooleanOption → String
  | .stderrLog => "stderr_log"
  | .syslogLog => "syslog_log"
  | .prioritizeWire => "prioritize_wire"
  | .dnssecEnabled => "dnssec_enabled"

/-- The key in the file of an option whose value is a text; the path of the file itself has none. -/
def stringKey : StringOption → Option String
  | .fileLog => some "file_log"
  | .resolvConfPath => some "resolv_conf_path"
  | .resolverOptions => some "resolver_options"
  | .configFile => none
  | .certificationAuthority => some "certification_authority"

/-- The table of `duplicating_options` has each key at its option. -/
lemma stringKey_of_lookup {key : String} {o : StringOption}
    (h : duplicatingOptionsTable.lookup key = some o) : stringKey o = some key := by
  unfold duplicatingOptionsTable at h
  grind [stringKey]

/-- What storing an option can do: it sets one option, or it adds a path to those to be included. -/
lemma storeOption_cases {net : Inet} {key value : String} {s s' : FileState}
    (h : storeOption net key value s = .ok s') :
    (key = "log_level" ∧
      s' = { s with config := { s.config with logLevel := parseLogLevel value } }) ∨
    (∃ o, key = booleanKey o ∧
      s' = { s with config := s.config.setBoolean o (parseBoolean value) }) ∨
    (key = "listen_address" ∧ ∃ address,
      parseIpStr net value s.config.listenAddress.port = some address ∧
      s' = { s with config := { s.config with listenAddress := address } }) ∨
    (key = "include" ∧ s' = { s with includePaths := s.includePaths ++ [value] }) ∨
    ∃ o, stringKey o = some key ∧ s' = { s with config := s.config.setString o value } := by
  unfold storeOption at h
  split_ifs at h with hlevel hstderr hsyslog haddress hwire hdnssec hinclude
  · exact Or.inl ⟨hlevel, (Except.ok.inj h).symm⟩
  · exact Or.inr (Or.inl ⟨.stderrLog, hstderr, (Except.ok.inj h).symm⟩)
  · exact Or.inr (Or.inl ⟨.syslogLog, hsyslog, (Except.ok.inj h).symm⟩)
  · split at h
    · cases h
    · rename_i address hparse
      exact Or.inr (Or.inr (Or.inl ⟨haddress, address, hparse, (Except.ok.inj h).symm⟩))
  · exact Or.inr (Or.inl ⟨.prioritizeWire, hwire, (Except.ok.inj h).symm⟩)
  · exact Or.inr (Or.inl ⟨.dnssecEnabled, hdnssec, (Except.ok.inj h).symm⟩)
  · exact Or.inr (Or.inr (Or.inr (Or.inl ⟨hinclude, (Except.ok.inj h).symm⟩)))
  · unfold duplicatingOptions at h
    cases hlookup : duplicatingOptionsTable.lookup key with
    | none => simp [hlookup] at h
    | some o =>
      simp only [hlookup] at h
      exact Or.inr (Or.inr (Or.inr (Or.inr
        ⟨o, stringKey_of_lookup hlookup, (Except.ok.inj h).symm⟩)))

/-- Scalar options do not touch the static servers. -/
lemma staticServers_of_storeOption {net : Inet} {key value : String} {s s' : FileState}
    (h : storeOption net key value s = .ok s') :
    s'.config.staticServers = s.config.staticServers := by
  rcases storeOption_cases h with ⟨-, rfl⟩ | ⟨o, -, rfl⟩ | ⟨-, _, -, rfl⟩ | ⟨-, rfl⟩ | ⟨o, -, rfl⟩
  all_goals rfl

/-- What storing an option, adding static servers and adding zones preserve is preserved by
`parse_single_config_file`. -/
theorem parseSingleConfigFile_rule {net : Inet} {P : RawConfig → Prop}
    (hoption : ∀ s key value s', P s.config → storeOption net key value s = .ok s' → P s'.config)
    (hservers : ∀ config events parsed rest, P config →
      parseStaticServers net events config.staticServers = some (.ok (parsed, rest)) →
      P { config with staticServers := parsed.staticServers })
    (hzones : ∀ config zones, P config → P { config with rpzZones := zones })
    {files : Files} {path : String} {config : RawConfig} {parsed : FileState}
    {rest : List YamlEvent} (hconfig : P config)
    (h : parseSingleConfigFile net files path config = some (.ok (parsed, rest))) :
    P parsed.config := by
  unfold parseSingleConfigFile at h
  split at h
  · cases h
  refine readAll_rule (P := fun s => P s.config) (Q := fun s => P s.config) ?_ ?_ hconfig h
  · intro s event rest s' rest' hs hturn
    rcases fileBody_continued hturn with ⟨key, hlist⟩ |
      ⟨-, ⟨key, depth, rfl⟩ | ⟨key, value, stored, hstore, rfl⟩⟩
    · rcases readOptionList_continued hlist with ⟨_, hread, rfl⟩ | ⟨_, -, rfl⟩ | ⟨_, -, rfl⟩ |
        ⟨rfl, -⟩
      · exact hservers _ _ _ _ hs hread
      · exact hzones _ _ hs
      · exact hs
      · exact hs
    · exact hs
    · exact hoption s key value stored hs hstore
  · intro s event rest s' rest' hs hturn
    rw [(fileBody_finished hturn).1]
    exact hs

/-- What every file preserves is preserved by the loop over the files. -/
theorem parseFiles_rule {net : Inet} {files : Files} {P : RawConfig → Prop}
    (hfile : ∀ path config parsed rest, P config →
      parseSingleConfigFile net files path config = some (.ok (parsed, rest)) → P parsed.config)
    {remaining : ℕ} {filesToParse : List String} {config result : RawConfig} (hconfig : P config)
    (h : parseFiles net files remaining filesToParse config = some (.ok result)) : P result := by
  -- the loop goes down in the number of files still allowed
  induction remaining generalizing filesToParse config with
  | zero =>
    cases filesToParse with
    | nil =>
      obtain rfl := Except.ok.inj (Option.some.inj h)
      exact hconfig
    | cons currentFile filesToParse => cases h
  | succ remaining ih =>
    cases filesToParse with
    | nil =>
      obtain rfl := Except.ok.inj (Option.some.inj h)
      exact hconfig
    | cons currentFile filesToParse =>
      unfold parseFiles at h
      split at h
      · cases h
      · cases h
      · rename_i parsed rest hparsed
        split at h
        · cases h
        · exact ih (hfile _ _ _ _ hconfig hparsed) h

/-- **Rule for configuration files.**  What storing an option, adding static servers and adding zones
preserve is preserved by `parse_config_file`, whatever the files, the files they include and the
file system are. -/
theorem parseConfigFile_rule {net : Inet} {P : RawConfig → Prop}
    (hoption : ∀ s key value s', P s.config → storeOption net key value s = .ok s' → P s'.config)
    (hservers : ∀ config events parsed rest, P config →
      parseStaticServers net events config.staticServers = some (.ok (parsed, rest)) →
      P { config with staticServers := parsed.staticServers })
    (hzones : ∀ config zones, P config → P { config with rpzZones := zones })
    {files : Files} {path : String} {config result : RawConfig} (hconfig : P config)
    (h : parseConfigFile net files path config = some (.ok result)) : P result :=
  parseFiles_rule
    (fun _ _ _ _ hconfig hfile => parseSingleConfigFile_rule hoption hservers hzones hconfig hfile)
    hconfig h

/-- The static servers of every configuration that `parse_config_file` accepts are well formed. -/
theorem parseConfigFile_wellFormed {net : Inet} {files : Files} {path : String}
    {config result : RawConfig} (hconfig : ∀ server ∈ config.staticServers, server.WellFormed)
    (h : parseConfigFile net files path config = some (.ok result)) :
    ∀ server ∈ result.staticServers, server.WellFormed := by
  refine parseConfigFile_rule (P := fun c => ∀ server ∈ c.staticServers, server.WellFormed)
    (fun s key value s' hs hstore => ?_) (fun _ _ _ _ hc hread => ?_) (fun _ _ hc => hc) hconfig h
  · rw [staticServers_of_storeOption hstore]
    exact hs
  · exact parseStaticServers_wellFormed hc hread

/-- The path of the configuration file is no option of the file itself. -/
lemma configFile_of_parseConfigFile {net : Inet} {files : Files} {path : String}
    {config result : RawConfig} (hconfig : config.string .configFile = none)
    (h : parseConfigFile net files path config = some (.ok result)) :
    result.string .configFile = none := by
  refine parseConfigFile_rule (P := fun c => c.string .configFile = none)
    (fun s key value s' hs hstore => ?_) (fun _ _ _ _ hc _ => hc) (fun _ _ hc => hc) hconfig h
  rcases storeOption_cases hstore with ⟨-, rfl⟩ | ⟨o, -, rfl⟩ | ⟨-, _, -, rfl⟩ | ⟨-, rfl⟩ |
    ⟨o, hkey, rfl⟩
  all_goals try exact hs
  have hne : StringOption.configFile ≠ o := by
    rintro rfl
    cases hkey
  exact (Function.update_of_ne hne _ _).trans hs

end Dnsconfd.ConfigFile
