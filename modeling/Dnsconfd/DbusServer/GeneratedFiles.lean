import Dnsconfd.DbusServer.SharedZones
import Dnsconfd.UnboundManager.FileStructure

/-!
# Files generated for accepted servers

What the daemon writes into unbound.conf and resolv.conf for servers that one of its two parsers has
accepted.  Neither of them checks names, and domains only for being convertible, so that the
structure of the files depends on the texts: it is the wanted one exactly if no domain with used
servers has a newline or a quote, no name of a used TLS server has a newline, a blank or a quote, and
no search domain of a used server has a newline (`generated_files_structured_iff`).
-/

namespace Dnsconfd

open Library

/-- Servers that come from an accepted configuration file, from an accepted Update, or from both. -/
def AcceptedServers (p : Platform) (servers : List ServerUri) : Prop :=
  ∃ staticServers dynamicServers, servers = staticServers ++ dynamicServers ∧
    (staticServers = [] ∨ ∃ files path config,
      ConfigFile.parseConfigFile p.inet files path .empty = some (.ok config) ∧
        staticServers = config.staticServers) ∧
    (dynamicServers = [] ∨ ∃ isWireless dicts mode mode',
      decodeUpdateCall p isWireless dicts mode = .ok (dynamicServers, mode'))

lemma AcceptedServers.wellFormed {p : Platform} {servers : List ServerUri}
    (h : AcceptedServers p servers) : ∀ s ∈ servers, s.WellFormed := by
  obtain ⟨staticServers, dynamicServers, rfl, hstatic, hdynamic⟩ := h
  intro s hs
  rcases List.mem_append.mp hs with hs | hs
  · rcases hstatic with rfl | ⟨files, path, config, hconfig, rfl⟩
    · cases hs
    · exact ConfigFile.parseConfigFile_wellFormed (by simp [RawConfig.empty]) hconfig s hs
  · rcases hdynamic with rfl | ⟨isWireless, dicts, mode, mode', hdecode⟩
    · cases hs
    · exact wellFormed_decodeUpdateCall hdecode s hs

/-- **Structure of the generated files.**  For all servers that were accepted, every mode and every
order in which the table is visited: unbound.conf, read back line by line, has the wanted block for
each domain with used servers and no other line, and resolv.conf has the wanted lines, if and only if
the texts of the used servers are safe.  No two blocks are for the same domain. -/
theorem generated_files_structured_iff (p : Platform) (hp : p.SortPermutes)
    (hnet : p.inet.PrintsWords) (config : Config) {servers : List ServerUri}
    (hservers : AcceptedServers p servers) {table : ServerTable}
    (htable : serverListToHashTable p servers = some table) (mode : Mode)
    (zonesOrder searchOrder : Enumeration ServerEntry) :
    ((usedDomains zonesOrder table mode).map Prod.fst).Nodup ∧
    ((readConf (confText (generateForwardZones p.inet zonesOrder table mode)) =
          wantedZones p.inet zonesOrder table mode ∧
        readLines (resolvConfText p config searchOrder table mode) =
          wantedResolvConf p config (searchesOf searchOrder table mode)) ↔
      ZoneTextsSafe mode table ∧ SearchTextsSafe mode table) := by
  have hip : ∀ entry ∈ table.entries, ∀ server ∈ entry.2, server.address.isIp = true := by
    intro entry hentry server hserver
    have hlookup : table.lookup entry.1 = some entry.2 := AList.mem_lookup_iff.mpr hentry
    have hmem := ((ne_nil_of_lookup_serverListToHashTable hp htable hlookup).2 server).mp hserver
    exact (hservers.wellFormed server hmem.1).address
  refine ⟨nodup_usedDomains zonesOrder table mode, ?_⟩
  rw [readConf_generateForwardZones_iff hnet hip, readLines_resolvConfText_iff]

/-- The converter that knows the loopback address only prints words. -/
lemma printsWords_loopback : Inet.loopback.PrintsWords where
  ntop4 _ := show "127.0.0.1" ≠ "" ∧ IsWord "127.0.0.1" by decide
  ntop6 _ := show "::" ≠ "" ∧ IsWord "::" by decide

/-- A domain of an Update gets its block. -/
theorem generated_files_structured_single :
    ∃ table, serverListToHashTable .idna [loopbackServer "example.com"] = some table ∧
      readConf (confText (generateForwardZones .loopback .stored table .backup)) =
        wantedZones .loopback .stored table .backup := by
  have hidn : domainToIdn .idna "example.com" = some "example.com" := by decide
  have haccepted : AcceptedServers .idna [loopbackServer "example.com"] :=
    ⟨[], _, rfl, Or.inl rfl, Or.inr ⟨_, _, _, _, (decodeUpdateCall_single hidn).2⟩⟩
  obtain ⟨table, htable⟩ : ∃ table,
      serverListToHashTable .idna [loopbackServer "example.com"] = some table := ⟨_, rfl⟩
  have hsafe : ∀ t ∈ serverListToHashTable .idna [loopbackServer "example.com"],
      ZoneTextsSafe .backup t ∧ SearchTextsSafe .backup t := by
    decide
  exact ⟨table, htable, ((generated_files_structured_iff .idna
    (fun _ _ => List.perm_insertionSort _ _) printsWords_loopback .plain haccepted htable .backup
    .stored .stored).2.mpr (hsafe table htable)).1⟩

/-- A dictionary of a TLS server with newlines in its name and in its search domain. -/
def injectingDict : VariantDict :=
  [("address", .byteString [192, 0, 2, 1]), ("protocol", .string "dns+tls"),
    ("name", .string "a\n\tforward-addr: 192.0.2.66"),
    ("search_domains", .stringArray ["b\nnameserver 192.0.2.66"])]

/-- The server of the dictionary. -/
def injectingServer : ServerUri :=
  { ServerUri.initial with
    address := .inet documentationAddress 853
    protocol := .tls
    name := some "a\n\tforward-addr: 192.0.2.66"
    routingDomains := ["."]
    searchDomains := ["b\nnameserver 192.0.2.66"] }

/-- An accepted Update puts an address of its choice into the zone of the root domain and a name
server into resolv.conf. -/
theorem generated_files_injected :
    decodeUpdateCall .plain (fun _ => false) [injectingDict] 0 =
      .ok ([injectingServer], .backup) ∧
    (serverListToHashTable .plain [injectingServer]).map (fun table =>
        readConf (confText (generateForwardZones Platform.plain.inet .stored table .backup))) =
      some [["forward-zone:"], ["name:", "."], ["forward-addr:", "192.0.2.1@853#a"],
        ["forward-addr:", "192.0.2.66"], ["forward-tls-upstream:", "yes"]] ∧
    (serverListToHashTable .plain [injectingServer]).map (fun table =>
        readLines (resolvConfText .plain .plain .stored table .backup)) =
      some ["#Generated by dnsconfd", "search b", "nameserver 192.0.2.66",
        "nameserver 127.0.0.1"] := by
  refine ⟨by decide, by decide, by decide⟩

end Dnsconfd
