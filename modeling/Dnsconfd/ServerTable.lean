import Dnsconfd.Types
import Dnsconfd.Library.Strtol
import Dnsconfd.Library.TransitionSystem
import Mathlib.Data.List.Infix
import Mathlib.Data.List.Sort

/-!
# Networks and the table of servers

`network_address.c` reads networks in CIDR notation and names their reverse zones;
`server_list_to_hash_table` groups a list of servers by the domains and reverse zones they
resolve and sorts every group.  The sort itself is GLib's and is a field of `Platform`, together
with the other library functions whose behaviour the daemon depends on.
-/

namespace Dnsconfd

open Library

/-- The library functions that the modelled code calls, as far as they are pure: the conversion
of addresses, `idn2_lookup_u8` with `IDN2_NFC_INPUT` (`none` if it does not return `IDN2_OK`)
and `g_list_sort`. -/
structure Platform where
  inet : Inet
  idn2LookupU8 : String → Option String
  gListSort : (ServerUri → ServerUri → Int32) → List ServerUri → List ServerUri

/-- A platform on which the model can be evaluated: IPv4 addresses are printed in the usual form and
no address is read from text, domains are kept as they are and lists are sorted by insertion. -/
def Platform.plain : Platform where
  inet :=
    { pton4 := fun _ => none
      pton6 := fun _ => none
      ntop4 := fun a => ".".intercalate (a.toList.map fun b => toString b.toNat)
      ntop6 := fun _ => "::" }
  idn2LookupU8 := some
  gListSort := fun compare servers => servers.insertionSort fun a b => compare a b ≤ 0

/-! ## Networks -/

/-- `network_address_t_from_string`. -/
def networkAddressFromString (net : Inet) (addressString : String) : Option NetworkAddress :=
  match addressString.toList.dropWhile (· ≠ '/') with
  | [] => none
  | _ :: afterSlash =>
    let ipStr := String.ofList (addressString.toList.takeWhile (· ≠ '/'))
    let (rawPrefix, endptr) := strtol afterSlash
    if inet6AddrStrLen ≤ ipStr.utf8ByteSize then none
    else if endptr ≠ [] ∨ rawPrefix < 0 ∨ 128 < rawPrefix then none
    else
      match parseIpStr net ipStr 0 with
      | some (.inet a p) =>
        if 32 < rawPrefix then none else some ⟨.inet a p, UInt8.ofNat rawPrefix.toNat⟩
      | some addr => some ⟨addr, UInt8.ofNat rawPrefix.toNat⟩
      | none => none

/-- How the texts inside of the fields of a server are read, as an abstract reading. -/
@[ext]
structure FieldTexts where
  protocol : String → DnsProtocol → Prop
  network : String → NetworkAddress → Prop

/-- Texts as the functions for them read them. -/
def FieldTexts.parsed (net : Inet) : FieldTexts where
  protocol text protocol := protocol ≠ .protocolsEnd ∧ protocolFromNstring text = protocol
  network text network := networkAddressFromString net text = some network

/-- The lower case hexadecimal digit printed for a nibble by `%x`. -/
def hexDigit (n : UInt8) : String :=
  String.singleton (Nat.digitChar n.toNat)

/-- `reverse_dns_ipv4`: the whole octets of the prefix, last one first. -/
def reverseDnsIpv4 (bytes : Vector UInt8 4) (prefixLength : UInt8) : String :=
  let octets := min (prefixLength.toNat / 8) 4
  let labels := (bytes.toList.take octets).map fun b => toString b.toNat ++ "."
  labels.reverse.foldl (· ++ ·) "" ++ "in-addr.arpa"

/-- The nibbles of an address, high nibble of each byte first. -/
def nibblesOf (bytes : Vector UInt8 16) : List UInt8 :=
  bytes.toList.flatMap fun (b : UInt8) => [(b >>> 4) &&& 0x0F, b &&& 0x0F]

/-- `reverse_dns_ipv6`: the whole nibbles of the prefix, last one first. -/
def reverseDnsIpv6 (bytes : Vector UInt8 16) (prefixLength : UInt8) : String :=
  let nibbles := min (prefixLength.toNat / 4) 32
  let labels := ((nibblesOf bytes).take nibbles).map fun n => hexDigit n ++ "."
  labels.reverse.foldl (· ++ ·) "" ++ "ip6.arpa"

/-- `network_address_t_to_reverse_dns`. -/
def networkAddressToReverseDns (addr : NetworkAddress) : Option String :=
  match addr.address with
  | .inet a _ => some (reverseDnsIpv4 a addr.prefixLength)
  | .inet6 a _ => some (reverseDnsIpv6 a addr.prefixLength)
  | .unspec => none

/-! ## Grouping servers by domain -/

/-- `compare_servers` of `server_uri.c`; the differences of the `int` fields wrap around. -/
def compareServers (a b : ServerUri) : Int32 :=
  let temp := b.priority - a.priority
  if temp = 0 then
    let temp := Int32.ofInt (b.protocol.toNat - a.protocol.toNat)
    if temp ≠ 0 then temp else Int32.ofInt (b.dnssec.toNat - a.dnssec.toNat)
  else temp

/-- `append_server`. -/
def appendServer (hashTable : ServerTable) (domain : String) (server : ServerUri) : ServerTable :=
  match hashTable.lookup domain with
  | some serverSublist => hashTable.insert domain (serverSublist ++ [server])
  | none => hashTable.insert domain [server]

/-- The loop over the routing domains of a server. -/
def appendRoutingDomains (server : ServerUri) (hashTable : ServerTable) : ServerTable :=
  server.routingDomains.foldl (fun t domain => appendServer t domain server) hashTable

/-- The loop over the networks of a server; it gives up at a network of no known family. -/
def appendNetworks (server : ServerUri) (hashTable : ServerTable) : Option ServerTable :=
  server.networks.foldlM (fun t network =>
    (networkAddressToReverseDns network).map fun domain => appendServer t domain server) hashTable

/-- `server_list_to_hash_table`. -/
def serverListToHashTable (p : Platform) (serverList : List ServerUri) : Option ServerTable :=
  (serverList.foldlM (fun t server => appendNetworks server (appendRoutingDomains server t))
    (∅ : ServerTable)).map
    (Table.mapValues fun _ servers => p.gListSort compareServers servers)

/-! ## What the table holds -/

/-- `g_list_sort` rearranges the list it is given. -/
def Platform.SortPermutes (p : Platform) : Prop :=
  ∀ compare servers, (p.gListSort compare servers).Perm servers

/-- The domains under which a server is entered into the table, in order. -/
def ServerUri.tableDomains (s : ServerUri) : List String :=
  s.routingDomains ++ s.networks.filterMap networkAddressToReverseDns

/-- The servers of a list that serve a domain, each as often as it names it. -/
def serversFor (domain : String) (serverList : List ServerUri) : List ServerUri :=
  serverList.flatMap fun s => List.replicate (s.tableDomains.count domain) s

/-- A list as a table keeps it: an empty one is not stored. -/
def storedList (servers : List ServerUri) : Option (List ServerUri) :=
  if servers = [] then none else some servers

lemma mem_serversFor {domain : String} {serverList : List ServerUri} {s : ServerUri} :
    s ∈ serversFor domain serverList ↔ s ∈ serverList ∧ domain ∈ s.tableDomains := by
  simp only [serversFor, List.mem_flatMap, List.mem_replicate, ne_eq, List.count_eq_zero, not_not]
  constructor
  · rintro ⟨s', hs', hdomain, rfl⟩
    exact ⟨hs', hdomain⟩
  · rintro ⟨hs, hdomain⟩
    exact ⟨s, hs, hdomain, rfl⟩

/-- `append_server` appends to the list of one domain and leaves all others alone. -/
lemma lookup_appendServer {t : ServerTable} {domain k : String} {server : ServerUri}
    {l : List ServerUri} (h : t.lookup k = storedList l) :
    (appendServer t domain server).lookup k =
      storedList (l ++ List.replicate ([domain].count k) server) := by
  have hinsert : ∀ l', (AList.insert domain l' t).lookup k =
      if k = domain then some l' else storedList l := by
    intro l'
    by_cases hk : k = domain
    · subst hk
      rw [AList.lookup_insert, if_pos rfl]
    · rw [AList.lookup_insert_ne hk, h, if_neg hk]
  by_cases hk : k = domain
  · subst hk
    have hl : appendServer t k server = AList.insert k (l ++ [server]) t := by
      unfold appendServer
      by_cases hnil : l = []
      · simp [h, storedList, hnil]
      · simp [h, storedList, hnil]
    rw [hl, hinsert, if_pos rfl]
    simp [storedList]
  · have hcount : [domain].count k = 0 := List.count_eq_zero.mpr (by simpa using hk)
    rw [hcount, List.replicate_zero, List.append_nil]
    unfold appendServer
    split <;> rw [hinsert, if_neg hk]

/-- Entering one server under several domains. -/
lemma lookup_foldl_appendServer {server : ServerUri} (domains : List String) {t : ServerTable}
    {k : String} {l : List ServerUri} (h : t.lookup k = storedList l) :
    (domains.foldl (fun t domain => appendServer t domain server) t).lookup k =
      storedList (l ++ List.replicate (domains.count k) server) := by
  induction domains generalizing t l with
  | nil => simpa using h
  | cons domain domains ih =>
    rw [List.foldl_cons, ih (lookup_appendServer h), List.append_assoc, List.replicate_append_replicate,
      ← List.count_append, List.singleton_append]

/-- The loop over the networks enters the server under their reverse zones, if all have one. -/
lemma appendNetworks_eq {server : ServerUri} {t t' : ServerTable}
    (h : appendNetworks server t = some t') :
    t' = (server.networks.filterMap networkAddressToReverseDns).foldl
      (fun t domain => appendServer t domain server) t := by
  unfold appendNetworks at h
  generalize server.networks = networks at h ⊢
  induction networks generalizing t with
  | nil => exact (Option.some.inj h).symm
  | cons network networks ih =>
    rw [List.foldlM_cons] at h
    obtain ⟨t'', hnetwork, hrest⟩ := Option.bind_eq_some_iff.mp h
    obtain ⟨domain, hdomain, rfl⟩ := Option.map_eq_some_iff.mp hnetwork
    rw [List.filterMap_cons, hdomain]
    exact ih hrest

/-- One server enters the table under all of its domains. -/
lemma lookup_appendServerDomains {server : ServerUri} {t t' : ServerTable} {k : String}
    {l : List ServerUri} (h : t.lookup k = storedList l)
    (ht : appendNetworks server (appendRoutingDomains server t) = some t') :
    t'.lookup k = storedList (l ++ List.replicate (server.tableDomains.count k) server) := by
  have hrouting : (appendRoutingDomains server t).lookup k = _ :=
    lookup_foldl_appendServer server.routingDomains h
  rw [appendNetworks_eq ht, lookup_foldl_appendServer _ hrouting, List.append_assoc,
    List.replicate_append_replicate, ← List.count_append]
  rfl

/-- The specification of `server_list_to_hash_table`: under each domain the servers that name it,
sorted. -/
theorem lookup_serverListToHashTable {p : Platform} {serverList : List ServerUri}
    {table : ServerTable} (h : serverListToHashTable p serverList = some table) (k : String) :
    table.lookup k =
      (storedList (serversFor k serverList)).map (p.gListSort compareServers) := by
  obtain ⟨t, ht, rfl⟩ := Option.map_eq_some_iff.mp h
  have hfold : ∀ (list : List ServerUri) (t₀ : ServerTable) (l : List ServerUri),
      t₀.lookup k = storedList l →
      list.foldlM (fun t server => appendNetworks server (appendRoutingDomains server t)) t₀ =
        some t → t.lookup k = storedList (l ++ serversFor k list) := by
    intro list
    induction list with
    | nil =>
      intro t₀ l hl ht
      obtain rfl : t₀ = t := Option.some.inj ht
      simpa [serversFor] using hl
    | cons server list ih =>
      intro t₀ l hl ht
      rw [List.foldlM_cons] at ht
      obtain ⟨t₁, hserver, hrest⟩ := Option.bind_eq_some_iff.mp ht
      rw [ih t₁ _ (lookup_appendServerDomains hl hserver) hrest, List.append_assoc]
      rfl
  have hlookup := hfold serverList ∅ [] rfl ht
  rw [Table.lookup_mapValues, hlookup, List.nil_append]

/-- Servers all of whose networks are of a known family have a table. -/
theorem serverListToHashTable_isSome (p : Platform) {serverList : List ServerUri}
    (h : ∀ s ∈ serverList, ∀ network ∈ s.networks, network.address.isIp = true) :
    (serverListToHashTable p serverList).isSome = true := by
  have hnetworks : ∀ s ∈ serverList, ∀ t, (appendNetworks s t).isSome = true := by
    intro s hs t
    refine foldlM_isSome (fun network hnetwork t => ?_) t
    have hip := h s hs network hnetwork
    unfold networkAddressToReverseDns
    cases haddress : network.address with
    | unspec => rw [haddress] at hip; cases hip
    | inet a port => rfl
    | inet6 a port => rfl
  rw [serverListToHashTable, Option.isSome_map]
  exact foldlM_isSome (fun s hs t => hnetworks s hs _) ∅

/-- No list of the table is empty, and its servers come from the list the table is made of. -/
theorem ne_nil_of_lookup_serverListToHashTable {p : Platform} (hp : p.SortPermutes)
    {serverList : List ServerUri} {table : ServerTable}
    (h : serverListToHashTable p serverList = some table) {domain : String}
    {servers : List ServerUri} (hl : table.lookup domain = some servers) :
    servers ≠ [] ∧ ∀ s, s ∈ servers ↔ s ∈ serverList ∧ domain ∈ s.tableDomains := by
  rw [lookup_serverListToHashTable h] at hl
  obtain ⟨l, hstored, rfl⟩ := Option.map_eq_some_iff.mp hl
  unfold storedList at hstored
  split at hstored
  · cases hstored
  · rename_i hne
    obtain rfl := Option.some.inj hstored
    have hperm := hp compareServers (serversFor domain serverList)
    refine ⟨fun hnil => hne ?_, fun s => ?_⟩
    · rw [hnil] at hperm
      exact hperm.nil_eq.symm
    · rw [hperm.mem_iff, mem_serversFor]

end Dnsconfd
