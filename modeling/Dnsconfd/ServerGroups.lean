import Dnsconfd.UnboundManager.UsedServers
import Dnsconfd.Library.StableSort

/-!
# The groups of `server_list_to_hash_table`

What the value lists of the table hold and in which order.  Their content does not depend on the
comparison: under each domain every server stands as often as it names the domain, by a routing
domain or by the reverse zone of a network (`serverListToHashTable_perm`).  Their order does:
`compare_servers` returns a difference of two `int` values, which wraps around, so it compares two
servers by rank in both directions exactly if their priorities differ by less than `2 ^ 31`
(`comparesByRank_iff`).
-/

namespace Dnsconfd

open Library

/-! ## Content -/

/-- How often a server names a domain: as a routing domain and as the reverse zone of a network. -/
def ServerUri.mentions (s : ServerUri) (domain : String) : ℕ :=
  s.routingDomains.count domain +
    s.networks.countP fun network => networkAddressToReverseDns network = some domain

lemma ServerUri.count_tableDomains (s : ServerUri) (domain : String) :
    s.tableDomains.count domain = s.mentions domain := by
  have hnetworks : (s.networks.filterMap networkAddressToReverseDns).count domain =
      s.networks.countP fun network => networkAddressToReverseDns network = some domain := by
    rw [List.count, List.countP_filterMap]
    refine List.countP_congr fun network _ => ?_
    cases networkAddressToReverseDns network with
    | none => simp
    | some zone => simp
  rw [ServerUri.tableDomains, List.count_append, hnetworks, ServerUri.mentions]

/-- Grouping by domain loses and invents nothing: under each domain stand, in some order, the
servers of the list, each as often as it names the domain, and exactly the domains that some server
names are keys.  Of the sort it is only used that it permutes the lists it is given here. -/
theorem serverListToHashTable_perm (p : Platform)
    (hp : ∀ servers, (p.gListSort compareServers servers).Perm servers)
    (serverList : List ServerUri)
    (hnetworks : ∀ s ∈ serverList, ∀ network ∈ s.networks, network.address.isIp = true) :
    ∃ table, serverListToHashTable p serverList = some table ∧ ∀ domain,
      ((table.lookup domain).getD []).Perm
        (serverList.flatMap fun s => List.replicate (s.mentions domain) s) ∧
      (domain ∈ table ↔ serverList.flatMap (fun s => List.replicate (s.mentions domain) s) ≠ []) := by
  obtain ⟨table, htable⟩ := Option.isSome_iff_exists.mp (serverListToHashTable_isSome p hnetworks)
  refine ⟨table, htable, fun domain => ?_⟩
  have hlist : serverList.flatMap (fun s => List.replicate (s.mentions domain) s) =
      serversFor domain serverList := by
    unfold serversFor
    simp only [ServerUri.count_tableDomains]
  rw [hlist, ← AList.lookup_isSome, lookup_serverListToHashTable htable]
  by_cases hnil : serversFor domain serverList = []
  · simp [storedList, hnil]
  · simpa [storedList, hnil] using hp (serversFor domain serverList)

/-- Two servers for one domain, one of them naming it twice. -/
theorem serverListToHashTable_perm_twice :
    ∃ table, serverListToHashTable .plain
        [{ globalServer with routingDomains := [".", "."] }, globalServer] = some table ∧
      ((table.lookup ".").getD []).Perm
        [{ globalServer with routingDomains := [".", "."] },
          { globalServer with routingDomains := [".", "."] }, globalServer] := by
  obtain ⟨table, htable, hgroups⟩ := serverListToHashTable_perm .plain
    (fun servers => List.perm_insertionSort _ servers)
    [{ globalServer with routingDomains := [".", "."] }, globalServer]
    (by simp [globalServer, ServerUri.initial])
  exact ⟨table, htable, (hgroups ".").1⟩

/-! ## Order -/

/-- `g_list_sort` sorts stably the lists on whose elements the comparison is a total preorder, with
opposite signs for the two orders of two elements. -/
def Platform.SortsStably (p : Platform) : Prop :=
  ∀ (compare : ServerUri → ServerUri → Int32) (servers : List ServerUri),
    (∀ a ∈ servers, ∀ b ∈ servers, compare a b < 0 ↔ 0 < compare b a) →
    TotalPreorderOn (fun a b => compare a b ≤ 0) servers →
    IsStableSort (fun a b => compare a b ≤ 0) servers (p.gListSort compare servers)

/-- The sign of what `compare_servers` returns tells which of two servers has the higher rank. -/
def ComparesByRank (a b : ServerUri) : Prop :=
  (compareServers a b < 0 ↔ b.rank < a.rank) ∧ (compareServers a b = 0 ↔ b.rank = a.rank)

/-- The priorities of two servers differ by a number that an `int` holds. -/
def PrioritiesClose (a b : ServerUri) : Prop :=
  (b.priority.toInt - a.priority.toInt).natAbs < 2 ^ 31

/-- What `compare_servers` returns, as a number. -/
lemma toInt_compareServers (a b : ServerUri) :
    (compareServers a b).toInt =
      if b.priority.toInt = a.priority.toInt then
        if b.protocol.toNat = a.protocol.toNat then (b.dnssec.toNat : ℤ) - a.dnssec.toNat
        else (b.protocol.toNat : ℤ) - a.protocol.toNat
      else (b.priority.toInt - a.priority.toInt).bmod (2 ^ 32) := by
  have hprotocol : ∀ protocol : DnsProtocol, protocol.toNat ≤ 3 := by
    intro protocol
    cases protocol <;> simp [DnsProtocol.toNat]
  have hprotocols : (Int32.ofInt (b.protocol.toNat - a.protocol.toNat)).toInt =
      b.protocol.toNat - a.protocol.toNat := by
    have ha := hprotocol a.protocol
    have hb := hprotocol b.protocol
    exact Int32.toInt_ofInt_of_le (by omega) (by omega)
  have hdnssec : (Int32.ofInt (b.dnssec.toNat - a.dnssec.toNat)).toInt =
      b.dnssec.toNat - a.dnssec.toNat := by
    have ha := a.dnssec.toNat_lt
    have hb := b.dnssec.toNat_lt
    exact Int32.toInt_ofInt_of_le (by omega) (by omega)
  have hpriority : b.priority - a.priority = 0 ↔ b.priority.toInt = a.priority.toInt := by
    rw [Int32.sub_eq_iff_eq_add, Int32.zero_add, Int32.toInt_inj]
  have hprotocol_ne : Int32.ofInt (b.protocol.toNat - a.protocol.toNat) ≠ 0 ↔
      b.protocol.toNat ≠ a.protocol.toNat := by
    rw [ne_eq, ← Int32.toInt_inj, hprotocols, Int32.toInt_zero]
    omega
  unfold compareServers
  dsimp only
  by_cases hp : b.priority.toInt = a.priority.toInt
  · rw [if_pos (hpriority.mpr hp), if_pos hp]
    by_cases hq : b.protocol.toNat = a.protocol.toNat
    · rw [if_neg fun h => hprotocol_ne.mp h hq, if_pos hq, hdnssec]
    · rw [if_pos (hprotocol_ne.mpr hq), if_neg hq, hprotocols]
  · rw [if_neg fun h => hp (hpriority.mp h), if_neg hp, Int32.toInt_sub]

/-- `compare_servers` compares two servers by rank, in both orders, exactly if their priorities are
close. -/
lemma comparesByRank_iff (a b : ServerUri) :
    ComparesByRank a b ∧ ComparesByRank b a ↔ PrioritiesClose a b := by
  have hlt := a.priority.toInt_lt
  have hle := a.priority.le_toInt
  have hlt' := b.priority.toInt_lt
  have hle' := b.priority.le_toInt
  simp only [ComparesByRank, PrioritiesClose, Int32.lt_iff_toInt_lt, ← Int32.toInt_inj,
    Int32.toInt_zero, toInt_compareServers, ServerUri.rank, Prod.Lex.toLex_lt_toLex,
    EmbeddingLike.apply_eq_iff_eq, Prod.mk.injEq, Int.bmod_def]
  split_ifs <;> omega

/-- Servers with close priorities that are sorted stably by `compare_servers` are sorted by rank,
and servers of one rank keep their order. -/
lemma sortedByRank_gListSort {p : Platform} (hp : p.SortsStably) {servers : List ServerUri}
    (h : ∀ a ∈ servers, ∀ b ∈ servers, PrioritiesClose a b) :
    SortedByRank (p.gListSort compareServers servers) ∧
      ∀ rank, (p.gListSort compareServers servers).filter (fun s => s.rank = rank) =
        servers.filter fun s => s.rank = rank := by
  have hcompare : ∀ a ∈ servers, ∀ b ∈ servers, ComparesByRank a b :=
    fun a ha b hb => ((comparesByRank_iff a b).mpr (h a ha b hb)).1
  have hle : ∀ a ∈ servers, ∀ b ∈ servers, compareServers a b ≤ 0 ↔ b.rank ≤ a.rank := by
    intro a ha b hb
    rw [Int32.le_iff_lt_or_eq, (hcompare a ha b hb).1, (hcompare a ha b hb).2, le_iff_lt_or_eq]
  have hsign : ∀ a ∈ servers, ∀ b ∈ servers, compareServers a b < 0 ↔ 0 < compareServers b a := by
    intro a ha b hb
    rw [(hcompare a ha b hb).1, ← Int32.not_le, hle b hb a ha, not_le]
  have hsort := hp compareServers servers hsign (totalPreorderOn_of_key hle)
  exact ⟨hsort.pairwise_key hle, hsort.filter_key_eq hle⟩

/-- Per-domain lists are sorted: `compare_servers` compares the servers of each domain by rank, and
every value list of the table has the highest ranks first and keeps the order of servers of one
rank, exactly if any two servers that name one domain have close priorities. -/
theorem serverListToHashTable_sorted_iff (p : Platform) (hp : p.SortsStably)
    (serverList : List ServerUri) :
    ((∀ domain, ∀ a ∈ serversFor domain serverList, ∀ b ∈ serversFor domain serverList,
        ComparesByRank a b) ∧
      ∀ table, serverListToHashTable p serverList = some table → ∀ domain servers,
        table.lookup domain = some servers → SortedByRank servers ∧
          ∀ rank, servers.filter (fun s => s.rank = rank) =
            (serversFor domain serverList).filter fun s => s.rank = rank) ↔
    ∀ a ∈ serverList, ∀ b ∈ serverList,
      (∃ domain, domain ∈ a.tableDomains ∧ domain ∈ b.tableDomains) → PrioritiesClose a b := by
  constructor
  · rintro ⟨hcompare, -⟩ a ha b hb ⟨domain, hda, hdb⟩
    have hmema := mem_serversFor.mpr ⟨ha, hda⟩
    have hmemb := mem_serversFor.mpr ⟨hb, hdb⟩
    exact (comparesByRank_iff a b).mp
      ⟨hcompare domain a hmema b hmemb, hcompare domain b hmemb a hmema⟩
  · intro hclose
    have hdomain : ∀ domain, ∀ a ∈ serversFor domain serverList,
        ∀ b ∈ serversFor domain serverList, PrioritiesClose a b := by
      intro domain a ha b hb
      obtain ⟨hmema, hda⟩ := mem_serversFor.mp ha
      obtain ⟨hmemb, hdb⟩ := mem_serversFor.mp hb
      exact hclose a hmema b hmemb ⟨domain, hda, hdb⟩
    refine ⟨fun domain a ha b hb => ?_, fun table htable domain servers hlookup => ?_⟩
    · exact ((comparesByRank_iff a b).mpr (hdomain domain a ha b hb)).1
    · rw [lookup_serverListToHashTable htable] at hlookup
      obtain ⟨l, hstored, rfl⟩ := Option.map_eq_some_iff.mp hlookup
      unfold storedList at hstored
      split_ifs at hstored
      obtain rfl := Option.some.inj hstored
      exact sortedByRank_gListSort hp (hdomain domain)

/-- Sorting by insertion is a stable sort. -/
lemma Platform.plain_sortsStably : Platform.plain.SortsStably :=
  fun _ _ _ htotal => isStableSort_insertionSort htotal

/-- Of two servers for one domain, with priorities 50 and 100, the second one comes first. -/
theorem serverListToHashTable_sorted_small :
    ∃ table, serverListToHashTable .plain [globalServer, boundServer] = some table ∧
      table.lookup "." = some [boundServer, globalServer] ∧
      SortedByRank [boundServer, globalServer] := by
  have hclose : ∀ a ∈ [globalServer, boundServer], ∀ b ∈ [globalServer, boundServer],
      (∃ domain, domain ∈ a.tableDomains ∧ domain ∈ b.tableDomains) → PrioritiesClose a b := by
    intro a ha b hb _
    simp only [List.mem_cons, List.not_mem_nil, or_false] at ha hb
    rcases ha with rfl | rfl <;> rcases hb with rfl | rfl <;> unfold PrioritiesClose <;> decide
  obtain ⟨table, htable, hlookup⟩ : ∃ table,
      serverListToHashTable .plain [globalServer, boundServer] = some table ∧
        table.lookup "." = some [boundServer, globalServer] := ⟨_, rfl, by decide⟩
  refine ⟨table, htable, hlookup, ?_⟩
  exact (((serverListToHashTable_sorted_iff .plain Platform.plain_sortsStably _).mpr hclose).2
    table htable "." _ hlookup).1

/-- A server with the largest priority is sorted behind one with priority -2: the difference of the
two is no `int`, and what is left of it has the other sign. -/
theorem serverListToHashTable_overflow :
    let high := { globalServer with priority := 2147483647 }
    let low := { globalServer with priority := -2 }
    compareServers high low = 2147483647 ∧
      ((serverListToHashTable .plain [high, low]).bind fun table => table.lookup ".") =
        some [low, high] ∧ ¬ SortedByRank [low, high] := by
  decide

end Dnsconfd
