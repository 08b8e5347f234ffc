import Dnsconfd.UnboundManager.FileStructure
import Dnsconfd.UnboundManager.Reconciliation
import Dnsconfd.UnboundManager.UsedServers

/-!
# The file and the command describe the same zone

`generate_forward_zones` and `get_forward_add_command` render the used servers of a domain by
separate code: the file is forwarded over TLS if any of them uses TLS, the command if the first one
does.  The two agree because the used servers of a sorted list all have the rank of its first
server (`rank_eq_of_mem_getUsedServers`).  The file as a whole has one zone for the root domain.
-/

namespace Dnsconfd

open Library

/-! ## What the two renderings say -/

/-- The address tokens of the lines of a file. -/
def forwardAddrs (lines : List ConfLine) : List String :=
  lines.filterMap fun
    | .forwardAddr token => some token
    | _ => none

/-- The address arguments of a command. -/
def UnboundCommand.addresses : UnboundCommand → List String
  | forwardAdd _ _ _ addresses => addresses
  | _ => []

/-- The command has the flag `t`. -/
def UnboundCommand.tls : UnboundCommand → Bool
  | forwardAdd _ tls _ _ => tls
  | _ => false

lemma forwardAddrs_forwardZoneLines (net : Inet) (domain : String) (servers : List ServerUri) :
    forwardAddrs (forwardZoneLines net domain servers) =
      servers.map (serverToUnboundString net) := by
  have hservers : forwardAddrs (servers.map fun server =>
      .forwardAddr (serverToUnboundString net server)) =
        servers.map (serverToUnboundString net) := by
    unfold forwardAddrs
    rw [List.filterMap_map, ← List.filterMap_eq_map]
    rfl
  have happend : ∀ l₁ l₂, forwardAddrs (l₁ ++ l₂) = forwardAddrs l₁ ++ forwardAddrs l₂ :=
    fun l₁ l₂ => List.filterMap_append
  rw [forwardZoneLines, happend, happend, hservers]
  exact List.append_nil _

lemma forwardTlsUpstream_mem_forwardZoneLines {net : Inet} {domain : String}
    {servers : List ServerUri} :
    .forwardTlsUpstream true ∈ forwardZoneLines net domain servers ↔
      ∃ s ∈ servers, s.protocol = .tls := by
  simp [forwardZoneLines]

lemma addresses_getForwardAddCommand (net : Inet) (domain : String) (servers : List ServerUri) :
    (getForwardAddCommand net domain servers).addresses = servers.map (serverArg net) := by
  cases servers <;> rfl

lemma tls_getForwardAddCommand {net : Inet} {domain : String} {servers : List ServerUri}
    (hne : servers ≠ []) :
    (getForwardAddCommand net domain servers).tls = decide ((servers.head hne).protocol = .tls) := by
  cases servers with
  | nil => exact absurd rfl hne
  | cons s servers => rfl

/-- A domain with used servers has the lines of one zone. -/
lemma zoneEntryLines_eq {net : Inet} {mode : Mode} {domain : String} {servers : List ServerUri}
    (hused : getUsedServers servers mode domain ≠ []) :
    zoneEntryLines net mode ⟨domain, servers⟩ =
      forwardZoneLines net domain (getUsedServers servers mode domain) := by
  unfold zoneEntryLines
  cases h : getUsedServers servers mode domain with
  | nil => exact absurd h hused
  | cons s used => rfl

/-! ## Used servers -/

/-- The used servers of a sorted list have the rank of its first server. -/
lemma rank_eq_of_mem_getUsedServers {servers : List ServerUri} (hne : servers ≠ [])
    (hs : SortedByRank servers) {mode : Mode} {domain : String} {s : ServerUri}
    (hmem : s ∈ getUsedServers servers mode domain) : s.rank = (servers.head hne).rank := by
  rw [getUsedServers_eq hs hne, List.mem_reverse, List.mem_filter, Bool.and_eq_true] at hmem
  exact of_decide_eq_true hmem.2.2

/-- Servers of one rank use one protocol and agree on DNSSEC. -/
lemma protocol_dnssec_eq_of_rank_eq {a b : ServerUri} (h : a.rank = b.rank) :
    a.protocol = b.protocol ∧ a.dnssec = b.dnssec := by
  have hinjective : Function.Injective DnsProtocol.toNat := by
    intro x y
    cases x <;> cases y <;> simp [DnsProtocol.toNat]
  simp only [ServerUri.rank, EmbeddingLike.apply_eq_iff_eq, Prod.mk.injEq] at h
  exact ⟨hinjective h.2.1, UInt8.toNat_inj.mp h.2.2⟩

/-! ## The root zone -/

/-- The file describes one zone for the root domain. -/
lemma countP_root_loadClauses {p : Platform} {config : Config} (o : KickoffOutcome) (ctx : Context)
    (effectiveCa : String) :
    ((loadClauses (confLines p config o ctx effectiveCa)).2.countP fun zone => zone.1 = ".") = 1 := by
  rw [loadClauses_confLines]
  cases ctx.currentDomainToServers with
  | none => rfl
  | some table =>
    dsimp only
    set mode := ctx.resolutionMode
    have hdomains : (fileEntries p.inet mode (o.zonesOrder.visit table.entries)).map Prod.fst =
        (usedDomains o.zonesOrder table mode).map Prod.fst := by
      simp [fileEntries, usedDomains, List.map_filterMap, Function.comp_def]
    have hcount : ((fileEntries p.inet mode (o.zonesOrder.visit table.entries)).countP
        fun zone => zone.1 = ".") = ((usedDomains o.zonesOrder table mode).map Prod.fst).count "." := by
      rw [← hdomains, List.count, List.countP_map]
      exact List.countP_congr fun zone _ => by simp
    rw [List.countP_append, hcount, ← any_rootPresent mode o.zonesOrder]
    split_ifs with hroot
    · exact List.count_eq_one_of_mem (nodup_usedDomains _ _ _) (any_rootPresent_iff.mp hroot)
    · rw [List.count_eq_zero.mpr fun hmem => hroot (any_rootPresent_iff.mpr hmem)]
      rfl

/-! ## The agreement -/

/-- File and command describe the same zone, and TLS is never mixed.  The used servers of a sorted
list agree on protocol and DNSSEC; the zone that the file has for the domain, in whatever table the
list stands, lists the addresses of the command in the same order; it is forwarded over TLS exactly
if the command has the flag `t`, which it has exactly if every used server is reached over TLS.  Every
file has one zone for the root domain. -/
theorem file_command_agree (p : Platform) {servers : List ServerUri} (hne : servers ≠ [])
    (hs : SortedByRank servers) (mode : Mode) (domain : String)
    (hused : getUsedServers servers mode domain ≠ []) :
    (∀ a ∈ getUsedServers servers mode domain, ∀ b ∈ getUsedServers servers mode domain,
      a.protocol = b.protocol ∧ a.dnssec = b.dnssec) ∧
    forwardAddrs (zoneEntryLines p.inet mode ⟨domain, servers⟩) =
      (getForwardAddCommand p.inet domain (getUsedServers servers mode domain)).addresses ∧
    (.forwardTlsUpstream true ∈ zoneEntryLines p.inet mode ⟨domain, servers⟩ ↔
      (getForwardAddCommand p.inet domain (getUsedServers servers mode domain)).tls = true) ∧
    ((getForwardAddCommand p.inet domain (getUsedServers servers mode domain)).tls = true ↔
      ∀ s ∈ getUsedServers servers mode domain, s.protocol = .tls) ∧
    (∀ (order : Enumeration ServerEntry) (table : ServerTable),
      table.lookup domain = some servers →
      zoneEntryLines p.inet mode ⟨domain, servers⟩ <:+:
        generateForwardZones p.inet order table mode) ∧
    ∀ (config : Config) (o : KickoffOutcome) (ctx : Context) (effectiveCa : String),
      ((loadClauses (confLines p config o ctx effectiveCa)).2.countP fun zone => zone.1 = ".") =
        1 := by
  have hsame : ∀ a ∈ getUsedServers servers mode domain,
      ∀ b ∈ getUsedServers servers mode domain, a.protocol = b.protocol ∧ a.dnssec = b.dnssec := by
    intro a ha b hb
    apply protocol_dnssec_eq_of_rank_eq
    rw [rank_eq_of_mem_getUsedServers hne hs ha, rank_eq_of_mem_getUsedServers hne hs hb]
  -- one server that is reached over TLS stands for all of them
  have hhead := List.head_mem hused
  have hall : ∀ a ∈ getUsedServers servers mode domain, a.protocol = .tls →
      ∀ s ∈ getUsedServers servers mode domain, s.protocol = .tls := by
    intro a ha htls s hmem
    rw [(hsame s hmem a ha).1, htls]
  have hflag : (getForwardAddCommand p.inet domain (getUsedServers servers mode domain)).tls = true ↔
      ∀ s ∈ getUsedServers servers mode domain, s.protocol = .tls := by
    rw [tls_getForwardAddCommand hused, decide_eq_true_eq]
    exact ⟨hall _ hhead, fun h => h _ hhead⟩
  refine ⟨hsame, ?_, ?_, hflag, ?_, fun config o ctx ca => countP_root_loadClauses o ctx ca⟩
  · rw [zoneEntryLines_eq hused, forwardAddrs_forwardZoneLines, addresses_getForwardAddCommand]
    exact List.map_congr_left fun s _ => (serverArg_eq p.inet s).symm
  · rw [zoneEntryLines_eq hused, forwardTlsUpstream_mem_forwardZoneLines, hflag]
    exact ⟨fun ⟨s, hmem, htls⟩ => hall s hmem htls, fun h => ⟨_, hhead, h _ hhead⟩⟩
  · intro order table hlookup
    have hvisited := (Table.mem_visit_iff_lookup order table).mpr hlookup
    obtain ⟨before, after, hsplit⟩ := List.append_of_mem hvisited
    refine ⟨before.flatMap (zoneEntryLines p.inet mode), after.flatMap (zoneEntryLines p.inet mode) ++
      if (order.visit table.entries).any (rootPresent mode) then [] else defaultZoneLines, ?_⟩
    simp only [generateForwardZones, hsplit, List.flatMap_append, List.flatMap_cons,
      List.append_assoc]

/-- A domain with one server that is reached over TLS and one that is not: only the first is used. -/
theorem file_command_agree_mixed :
    forwardAddrs (zoneEntryLines Platform.plain.inet .backup
      ⟨"a", [{ globalServer with protocol := .tls }, globalServer]⟩) =
      (getForwardAddCommand Platform.plain.inet "a"
        [{ globalServer with protocol := .tls }]).addresses :=
  (file_command_agree .plain (by simp) (by decide) .backup "a" (by decide)).2.1

end Dnsconfd
