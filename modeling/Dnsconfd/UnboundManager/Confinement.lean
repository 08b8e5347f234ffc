import Dnsconfd.Fsm.EventLoop
import Dnsconfd.UnboundManager.EffectiveCa
import Dnsconfd.UnboundManager.FileStructure
import Dnsconfd.UnboundManager.IncrementalUpdate
import Dnsconfd.UnboundManager.ZoneAgreement

/-!
# Servers on interfaces in the restrictive modes

In mode exclusive a server bound to an interface must not have a share in anything that is derived
from the table of servers, in mode prefer not through the root domain (`MayContribute`).  This is
shown in two ways for each output: every address, CA and search domain in it is that of a server
that may contribute, and the output is the one that would come out if the addresses, names, CAs and
search domains of all other servers were erased from the table (`redact`).
-/

namespace Dnsconfd

open Library

variable {p : Platform} {config : Config} {mode : Mode} {domain : String}

/-! ## Who may contribute -/

/-- A server may have a share in what is derived from the table through a domain. -/
def MayContribute (mode : Mode) (domain : String) (s : ServerUri) : Prop :=
  mode = .exclusive ∨ (mode = .prefer ∧ domain = ".") → s.interface = ""

/-- The test of the code admits exactly the servers that may contribute. -/
lemma mayContribute_iff {s : ServerUri} :
    MayContribute mode domain s ↔ skippedInMode mode domain s = false := by
  unfold MayContribute skippedInMode
  cases mode <;> by_cases hi : s.interface = "" <;> by_cases hd : domain = "." <;>
    simp [Mode.toNat, hi, hd]

/-- A used server may contribute. -/
lemma mayContribute_of_mem_getUsedServers {servers : List ServerUri} {s : ServerUri}
    (hs : s ∈ getUsedServers servers mode domain) : s ∈ servers ∧ MayContribute mode domain s :=
  (mem_getUsedServers hs).imp_right mayContribute_iff.mpr

/-- Some server of the table that may contribute through its domain has a property. -/
def ContributedBy (table : ServerTable) (mode : Mode) (P : ServerUri → Prop) : Prop :=
  ∃ domain servers, table.lookup domain = some servers ∧
    ∃ s ∈ servers, MayContribute mode domain s ∧ P s

/-- Tokens are those of servers of a domain that may contribute through it. -/
def TokensOf (table : ServerTable) (mode : Mode) (domain : String) (token : ServerUri → String)
    (tokens : List String) : Prop :=
  ∃ servers, table.lookup domain = some servers ∧
    ∃ used : List ServerUri, (∀ s ∈ used, s ∈ servers ∧ MayContribute mode domain s) ∧
      tokens = used.map token

/-! ## Where the tokens come from -/

lemma tokensOf_used {table : ServerTable} {token : ServerUri → String}
    {servers used : List ServerUri} (hlookup : table.lookup domain = some servers)
    (hused : usedServersOf mode domain servers = some used) :
    TokensOf table mode domain token (used.map token) := by
  obtain ⟨rfl, -⟩ := usedServersOf_eq_some_iff.mp hused
  exact ⟨servers, hlookup, _, fun s hs => mayContribute_of_mem_getUsedServers hs, rfl⟩

/-- The zones of the written file. -/
lemma tokensOf_loadClauses {o : KickoffOutcome} {ctx : Context} {table : ServerTable}
    (htable : ctx.currentDomainToServers = some table) {effectiveCa : String}
    {zone : String × ZoneState}
    (hzone : zone ∈ (loadClauses (confLines p config o ctx effectiveCa)).2) :
    zone = (".", loopbackZone) ∨
      TokensOf table ctx.resolutionMode zone.1 (serverToUnboundString p.inet) zone.2.addresses := by
  rw [loadClauses_confLines, htable] at hzone
  rcases List.mem_append.mp hzone with hentry | hdefault
  · right
    obtain ⟨⟨domain, servers⟩, hvisited, hmap⟩ := List.mem_filterMap.mp hentry
    obtain ⟨used, hused, rfl⟩ := Option.map_eq_some_iff.mp hmap
    exact tokensOf_used ((Table.mem_visit_iff_lookup _ _).mp hvisited) hused
  · left
    split_ifs at hdefault
    · cases hdefault
    · exact List.mem_singleton.mp hdefault

/-- The CA taken from the servers of a table. -/
lemma contributedBy_effectiveCaFromUris {order : Enumeration ServerEntry} {table : ServerTable}
    {ca : String} (h : effectiveCaFromUris order table mode = some ca) :
    ContributedBy table mode fun s => s.protocol = .tls ∧ s.certificationAuthority = some ca := by
  rw [effectiveCaFromUris_eq] at h
  obtain ⟨s, hmin, hca⟩ := Option.bind_eq_some_iff.mp h
  obtain ⟨⟨domain, servers⟩, hvisited, hmem⟩ := List.mem_flatMap.mp (List.argmin_mem hmin)
  simp only [caCandidates, List.mem_filter, Bool.and_eq_true, Bool.not_eq_true',
    decide_eq_true_eq] at hmem
  obtain ⟨hs, ⟨-, hadmitted⟩, htls⟩ := hmem
  exact ⟨domain, servers, (Table.mem_visit_iff_lookup _ _).mp hvisited, s, hs,
    mayContribute_iff.mpr hadmitted, htls, hca⟩

/-- The effective CA is the configured one or taken from a server. -/
lemma contributedBy_getEffectiveCa {order : Enumeration ServerEntry} {readable : String → Bool}
    {table : ServerTable} {ca : String}
    (h : getEffectiveCa order readable (some table) mode config = some ca) :
    effectiveCaFromConfig readable config = some ca ∨
      ContributedBy table mode fun s => s.protocol = .tls ∧ s.certificationAuthority = some ca := by
  unfold getEffectiveCa at h
  rw [Option.bind_some] at h
  cases huris : effectiveCaFromUris order table mode with
  | none =>
    rw [huris] at h
    exact Or.inl h
  | some ca' =>
    rw [huris] at h
    cases h
    exact Or.inr (contributedBy_effectiveCaFromUris huris)

/-- The file names one CA bundle. -/
lemma tlsCertBundle_mem_confLines {o : KickoffOutcome} {ctx : Context} {effectiveCa ca : String} :
    .tlsCertBundle ca ∈ confLines p config o ctx effectiveCa ↔ ca = effectiveCa := by
  have hzone : ∀ domain servers, ConfLine.tlsCertBundle ca ∉
      forwardZoneLines p.inet domain servers := by
    intro domain servers
    simp [forwardZoneLines]
  have hdefault : ConfLine.tlsCertBundle ca ∉ defaultZoneLines := by simp [defaultZoneLines]
  have hzones : ConfLine.tlsCertBundle ca ∉
      confZoneLines p o.zonesOrder ctx.currentDomainToServers ctx.resolutionMode := by
    intro hmem
    unfold confZoneLines at hmem
    split at hmem
    · rcases List.mem_append.mp hmem with hentry | hroot
      · obtain ⟨entry, -, hline⟩ := List.mem_flatMap.mp hentry
        unfold zoneEntryLines at hline
        split at hline
        · cases hline
        · exact hzone _ _ hline
      · split_ifs at hroot
        · cases hroot
        · exact hdefault hroot
    · exact hdefault hmem
  have hrpz : ConfLine.tlsCertBundle ca ∉ generateRpzZones config.rpzZones := by
    intro hmem
    obtain ⟨zone, -, hline⟩ := List.mem_flatMap.mp hmem
    split at hline <;> split at hline <;> simp at hline
  simp [confLines, hzones, hrpz]

/-- What contributes to the table of used servers contributes to the table they are taken from. -/
lemma ContributedBy.of_usedServersTable {order : Enumeration ServerEntry} {table : ServerTable}
    {P : ServerUri → Prop} (h : ContributedBy (usedServersTable order table mode) mode P) :
    ContributedBy table mode P := by
  obtain ⟨domain, used, hlookup, s, hs, hmay, hP⟩ := h
  rw [usedServersTable, Table.lookup_collect_visit] at hlookup
  obtain ⟨servers, hservers, hused⟩ := Option.bind_eq_some_iff.mp hlookup
  obtain ⟨rfl, -⟩ := usedServersOf_eq_some_iff.mp hused
  exact ⟨domain, servers, hservers, s, (mem_getUsedServers hs).1, hmay, hP⟩

/-- The search domains of resolv.conf. -/
lemma contributedBy_searchesOf {order : Enumeration ServerEntry} {table : ServerTable}
    {search : String} (h : search ∈ searchesOf order table mode) :
    ContributedBy table mode fun s => search ∈ s.searchDomains := by
  obtain ⟨⟨domain, servers⟩, hentry, s, hs, hsearch⟩ := mem_searchesOf.mp h
  have hused := mayContribute_of_mem_getUsedServers hs
  exact ⟨domain, servers, AList.mem_lookup_iff.mpr hentry, s, hused.1, hused.2, hsearch⟩

/-- The commands that `update` executes are those for its new table. -/
lemma mem_updateCommands_of_mem_update {o : UpdateOutcome} {ctx : Context} {table : ServerTable}
    (htable : ctx.currentDomainToServers = some table) {command : UnboundCommand} {ok : Bool}
    (h : .commandExecuted command ok ∈ (update p config o ctx).2) :
    command ∈ updateCommands p o ctx.currentUnboundDomainToServers
      (usedServersTable o.tableOrder table ctx.resolutionMode) := by
  unfold update at h
  rw [htable] at h
  dsimp only at h
  split at h
  · simp at h
  · split at h
    · simp at h
    · split_ifs at h
      · simp at h
      · obtain ⟨c, hc, ok', heq⟩ := mem_applyUpdate_effects h
        cases heq
        exact hc

/-- The arguments of the commands that add domains. -/
lemma tokensOf_updateCommands {o : UpdateOutcome} {old : Option ServerTable} {table : ServerTable}
    {insecure tls : Bool} {addresses : List String}
    (h : .forwardAdd insecure tls domain addresses ∈
      updateCommands p o old (usedServersTable o.tableOrder table mode)) :
    (domain = "." ∧ addresses = ["127.0.0.1"]) ∨
      TokensOf table mode domain (serverArg p.inet) addresses := by
  rcases List.mem_append.mp h with hadd | hremove
  · right
    obtain ⟨⟨key, used⟩, hvisited, hmem⟩ := List.mem_flatMap.mp hadd
    have hlookup := (Table.mem_visit_iff_lookup _ _).mp hvisited
    rw [usedServersTable, Table.lookup_collect_visit] at hlookup
    obtain ⟨servers, hservers, hused⟩ := Option.bind_eq_some_iff.mp hlookup
    have hcommand : .forwardAdd insecure tls domain addresses =
        getForwardAddCommand p.inet key used := by
      split_ifs at hmem
      · cases hmem
      · simpa [addDomain] using hmem
    have hdomain : domain = key := by
      have hnamed := congrArg UnboundCommand.domain hcommand
      rwa [domain_getForwardAddCommand] at hnamed
    have haddresses : addresses = used.map (serverArg p.inet) := by
      have hnamed := congrArg UnboundCommand.addresses hcommand
      rwa [addresses_getForwardAddCommand] at hnamed
    rw [hdomain, haddresses]
    exact tokensOf_used hservers hused
  · left
    cases old with
    | none => cases hremove
    | some oldTable =>
      obtain ⟨entry, -, hmem⟩ := List.mem_flatMap.mp hremove
      split_ifs at hmem
      · cases hmem
      · by_cases hroot : entry.1 = "."
        · simp only [removeDomain, hroot, ne_eq, not_true_eq_false, if_false, List.mem_cons,
            UnboundCommand.forwardAdd.injEq, reduceCtorEq, List.not_mem_nil, or_false] at hmem
          exact hmem.2.2
        · simp [removeDomain, hroot] at hmem

/-! ## Erasing what must not contribute -/

/-- Erase what a server could contribute, unless it may contribute.  Its rank, its interface and the
domains it is entered under stay. -/
def redact (mode : Mode) (domain : String) (s : ServerUri) : ServerUri :=
  if skippedInMode mode domain s then
    { s with address := .unspec, certificationAuthority := none, name := none, searchDomains := [] }
  else s

/-- Redact the servers of one entry. -/
def redactEntry (mode : Mode) (entry : ServerEntry) : ServerEntry :=
  ⟨entry.1, entry.2.map (redact mode entry.1)⟩

/-- Redact a table. -/
def redactTable (mode : Mode) (table : ServerTable) : ServerTable :=
  table.mapValues fun domain servers => servers.map (redact mode domain)

/-- Redact the table of a context. -/
def Context.redacted (ctx : Context) : Context :=
  { ctx with
    currentDomainToServers := ctx.currentDomainToServers.map (redactTable ctx.resolutionMode) }

lemma redact_of_skipped {s : ServerUri} (h : skippedInMode mode domain s = true) :
    redact mode domain s = { s with
      address := .unspec, certificationAuthority := none, name := none, searchDomains := [] } :=
  if_pos h

lemma redact_of_not_skipped {s : ServerUri} (h : skippedInMode mode domain s = false) :
    redact mode domain s = s :=
  if_neg (by simp [h])

/-- What decides whether a server is selected or skipped is kept. -/
lemma redact_selection (s : ServerUri) :
    (redact mode domain s).priority = s.priority ∧ (redact mode domain s).protocol = s.protocol ∧
      (redact mode domain s).dnssec = s.dnssec ∧
      skippedInMode mode domain (redact mode domain s) = skippedInMode mode domain s := by
  cases h : skippedInMode mode domain s with
  | true => rw [redact_of_skipped h]; exact ⟨rfl, rfl, rfl, h⟩
  | false => rw [redact_of_not_skipped h]; exact ⟨rfl, rfl, rfl, h⟩

/-- The same servers are used. -/
lemma getUsedServers_redact (servers : List ServerUri) :
    getUsedServers (servers.map (redact mode domain)) mode domain =
      getUsedServers servers mode domain := by
  have hloop : ∀ maxPriority maxProtocol dnssec used,
      usedServersLoop maxPriority maxProtocol dnssec mode domain
        (servers.map (redact mode domain)) used =
      usedServersLoop maxPriority maxProtocol dnssec mode domain servers used := by
    intro maxPriority maxProtocol dnssec used
    induction servers generalizing used with
    | nil => rfl
    | cons s servers ih =>
      obtain ⟨hpriority, hprotocol, hdnssec, hskipped⟩ := @redact_selection mode domain s
      rw [List.map_cons, usedServersLoop, usedServersLoop, hpriority, hprotocol, hdnssec, hskipped,
        ih, ih]
      cases hskip : skippedInMode mode domain s with
      | true => rfl
      | false => rw [redact_of_not_skipped hskip]
  cases servers with
  | nil => rfl
  | cons s servers =>
    obtain ⟨hpriority, hprotocol, hdnssec, -⟩ := @redact_selection mode domain s
    have hsame := hloop s.priority s.protocol s.dnssec []
    simp only [getUsedServers, List.map_cons, hpriority, hprotocol, hdnssec] at hsame ⊢
    exact hsame

lemma usedServersOf_redact (servers : List ServerUri) :
    usedServersOf mode domain (servers.map (redact mode domain)) =
      usedServersOf mode domain servers := by
  unfold usedServersOf
  rw [getUsedServers_redact]

/-- The same server is chosen for the CA. -/
lemma effectiveCaLoop_redact (servers : List ServerUri) (best : CaChoice) :
    effectiveCaLoop mode domain (servers.map (redact mode domain)) best =
      effectiveCaLoop mode domain servers best := by
  induction servers generalizing best with
  | nil => rfl
  | cons s servers ih =>
    rw [List.map_cons]
    cases hskip : skippedInMode mode domain s with
    | true =>
      have hleft : effectiveCaLoop mode domain (redact mode domain s :: servers.map (redact mode domain))
          best = effectiveCaLoop mode domain (servers.map (redact mode domain)) best := by
        rw [redact_of_skipped hskip]
        rfl
      have hright : effectiveCaLoop mode domain (s :: servers) best =
          effectiveCaLoop mode domain servers best := by
        rw [effectiveCaLoop]
        cases s.certificationAuthority with
        | none => rfl
        | some ca => simp [hskip]
      rw [hleft, hright, ih]
    | false =>
      rw [redact_of_not_skipped hskip, effectiveCaLoop, effectiveCaLoop]
      simp only [ih]

/-! ## Outputs of a redacted table

The orders in which the original and the redacted table are visited are to correspond. -/

section Corresponding

variable {table : ServerTable} {order order' : Enumeration ServerEntry}

lemma effectiveCaFromUris_redact
    (h : order'.visit (redactTable mode table).entries =
      (order.visit table.entries).map (redactEntry mode)) :
    effectiveCaFromUris order' (redactTable mode table) mode =
      effectiveCaFromUris order table mode := by
  unfold effectiveCaFromUris
  rw [h, List.foldl_map]
  congr 2
  funext best entry
  exact effectiveCaLoop_redact entry.2 best

lemma generateForwardZones_redact (net : Inet)
    (h : order'.visit (redactTable mode table).entries =
      (order.visit table.entries).map (redactEntry mode)) :
    generateForwardZones net order' (redactTable mode table) mode =
      generateForwardZones net order table mode := by
  have hlines : ∀ entry, zoneEntryLines net mode (redactEntry mode entry) =
      zoneEntryLines net mode entry := by
    intro entry
    unfold zoneEntryLines redactEntry
    dsimp only
    rw [getUsedServers_redact]
  have hroot : ∀ entry, rootPresent mode (redactEntry mode entry) = rootPresent mode entry := by
    intro entry
    unfold rootPresent redactEntry
    dsimp only
    rw [getUsedServers_redact]
  unfold generateForwardZones
  dsimp only
  rw [h, List.flatMap_map, List.any_map]
  simp only [hlines, hroot, Function.comp_def]

lemma usedServersTable_redact
    (h : order'.visit (redactTable mode table).entries =
      (order.visit table.entries).map (redactEntry mode)) :
    usedServersTable order' (redactTable mode table) mode = usedServersTable order table mode := by
  unfold usedServersTable Table.collect
  rw [h, List.foldl_map]
  simp only [redactEntry, usedServersOf_redact]

lemma searchesOf_redact
    (h : order'.visit (redactTable mode table).entries =
      (order.visit table.entries).map (redactEntry mode)) :
    searchesOf order' (redactTable mode table) mode = searchesOf order table mode := by
  unfold searchesOf
  rw [h, List.foldl_map]
  simp only [redactEntry, getUsedServers_redact]

end Corresponding

/-! ## The three operations -/

/-- Two results of an operation tell the same to the outside. -/
def OperationResult.Alike (r r' : OperationResult) : Prop :=
  r.error = r'.error ∧ r.effects = r'.effects ∧ r.ctx.effectiveCa = r'.ctx.effectiveCa

/-- A context with its table redacted, once the table is known. -/
lemma Context.redacted_eq {ctx : Context} {table : ServerTable}
    (htable : ctx.currentDomainToServers = some table) :
    ctx.redacted = { ctx with
      currentDomainToServers := some (redactTable ctx.resolutionMode table) } := by
  unfold Context.redacted
  rw [htable]
  rfl

/-- `write_configuration` writes the same file. -/
lemma writeConfiguration_redacted (o : KickoffOutcome) {ctx : Context} {table : ServerTable}
    (htable : ctx.currentDomainToServers = some table) :
    ∃ caOrder zonesOrder,
      (writeConfiguration p config { o with caOrder := caOrder, zonesOrder := zonesOrder }
        ctx.redacted).Alike (writeConfiguration p config o ctx) := by
  obtain ⟨caOrder, hcaOrder⟩ :=
    o.caOrder.exists_visit_map (redactEntry ctx.resolutionMode) table.entries
  obtain ⟨zonesOrder, hzonesOrder⟩ :=
    o.zonesOrder.exists_visit_map (redactEntry ctx.resolutionMode) table.entries
  refine ⟨caOrder, zonesOrder, ?_⟩
  rw [Context.redacted_eq htable]
  have hca : getEffectiveCa caOrder o.readable
      (some (redactTable ctx.resolutionMode table)) ctx.resolutionMode config =
      getEffectiveCa o.caOrder o.readable (some table) ctx.resolutionMode config := by
    unfold getEffectiveCa
    rw [Option.bind_some, Option.bind_some, effectiveCaFromUris_redact hcaOrder]
  have hlines : ∀ ca, confLines p config { o with caOrder := caOrder, zonesOrder := zonesOrder }
      { ctx with currentDomainToServers := some (redactTable ctx.resolutionMode table) } ca =
      confLines p config o ctx ca := by
    intro ca
    unfold confLines confZoneLines
    rw [htable]
    dsimp only
    rw [generateForwardZones_redact p.inet hzonesOrder]
  unfold writeConfiguration
  dsimp only
  rw [hca, htable]
  simp only [hlines, Option.isSome_some, Bool.true_and]
  cases getEffectiveCa o.caOrder o.readable (some table) ctx.resolutionMode config with
  | none => split_ifs <;> exact ⟨rfl, rfl, rfl⟩
  | some ca => dsimp only; split_ifs <;> exact ⟨rfl, rfl, rfl⟩

/-- `update` returns the same and executes the same commands. -/
lemma update_redacted (o : UpdateOutcome) {ctx : Context} {table : ServerTable}
    (htable : ctx.currentDomainToServers = some table) :
    ∃ tableOrder, update p config { o with tableOrder := tableOrder } ctx.redacted =
      update p config o ctx := by
  obtain ⟨tableOrder, hvisit⟩ :=
    o.tableOrder.exists_visit_map (redactEntry ctx.resolutionMode) table.entries
  refine ⟨tableOrder, ?_⟩
  rw [Context.redacted_eq htable]
  unfold update
  rw [htable]
  dsimp only
  rw [usedServersTable_redact hvisit]
  rfl

/-- `write_resolv_conf` writes the same text. -/
lemma writeResolvConf_redacted (o : ResolvConfOutcome) {ctx : Context} {table : ServerTable}
    (htable : ctx.currentDomainToServers = some table) :
    ∃ order, (writeResolvConf p config { o with order := order } ctx.redacted).Alike
      (writeResolvConf p config o ctx) := by
  obtain ⟨order, hvisit⟩ :=
    o.order.exists_visit_map (redactEntry ctx.resolutionMode) table.entries
  refine ⟨order, ?_⟩
  rw [Context.redacted_eq htable]
  have htext : resolvConfText p config order (redactTable ctx.resolutionMode table)
      ctx.resolutionMode = resolvConfText p config o.order table ctx.resolutionMode := by
    unfold resolvConfText
    rw [searchesOf_redact hvisit]
  have hfile : ∀ c : Context, c.currentDomainToServers = some table →
      c.resolutionMode = ctx.resolutionMode →
      (writeResolvConfFile p config { o with order := order }
        { c with currentDomainToServers := some (redactTable ctx.resolutionMode table) }).Alike
        (writeResolvConfFile p config o c) := by
    intro c hc hmode
    unfold writeResolvConfFile
    dsimp only
    rw [hc, hmode]
    dsimp only
    rw [htext]
    split_ifs <;> exact ⟨rfl, rfl, rfl⟩
  rcases Option.eq_none_or_eq_some ctx.resolvConfBackup with hbackup | ⟨backup, hbackup⟩
  · unfold writeResolvConf
    dsimp only
    rw [hbackup]
    cases o.originalContent with
    | none => exact ⟨rfl, rfl, rfl⟩
    | some content =>
      exact hfile { ctx with resolvConfBackup := some (cString content) } htable rfl
  · have hredacted : writeResolvConf p config { o with order := order }
        { ctx with currentDomainToServers := some (redactTable ctx.resolutionMode table) } =
        writeResolvConfFile p config { o with order := order }
          { ctx with currentDomainToServers := some (redactTable ctx.resolutionMode table) } :=
      writeResolvConf_of_backup hbackup
    rw [hredacted, writeResolvConf_of_backup hbackup]
    exact hfile ctx htable rfl

/-- Restrictive modes confine interface-bound servers.  Whatever `write_configuration`, `update` and
`write_resolv_conf` derive from the table of the context, every address in a zone of the file, every
argument of a command, the CA and every search domain comes from a server that may contribute, the
loopback address of the root domain and the configured CA apart; and all outputs are those of the
redacted table. -/
theorem bound_servers_confined (p : Platform) (config : Config) (ctx : Context)
    {table : ServerTable} (htable : ctx.currentDomainToServers = some table) :
    (∀ (o : KickoffOutcome) lines, .confWritten lines ∈ (writeConfiguration p config o ctx).effects →
      (∀ zone ∈ (loadClauses lines).2, zone = (".", loopbackZone) ∨
        TokensOf table ctx.resolutionMode zone.1 (serverToUnboundString p.inet) zone.2.addresses) ∧
      ∀ ca, .tlsCertBundle ca ∈ lines → effectiveCaFromConfig o.readable config = some ca ∨
        ContributedBy table ctx.resolutionMode fun s =>
          s.protocol = .tls ∧ s.certificationAuthority = some ca) ∧
    (∀ (o : UpdateOutcome) insecure tls domain addresses ok,
      .commandExecuted (.forwardAdd insecure tls domain addresses) ok ∈ (update p config o ctx).2 →
      (domain = "." ∧ addresses = ["127.0.0.1"]) ∨
        TokensOf table ctx.resolutionMode domain (serverArg p.inet) addresses) ∧
    (∀ (o : UpdateOutcome) ca, effectiveCaFromUris o.caOrder
        (usedServersTable o.tableOrder table ctx.resolutionMode) ctx.resolutionMode = some ca →
      ContributedBy table ctx.resolutionMode fun s =>
        s.protocol = .tls ∧ s.certificationAuthority = some ca) ∧
    (∀ (o : ResolvConfOutcome) text,
      .resolvConfWritten text ∈ (writeResolvConf p config o ctx).effects →
      text = resolvConfText p config o.order table ctx.resolutionMode ∧
        ∀ search ∈ searchesOf o.order table ctx.resolutionMode,
          ContributedBy table ctx.resolutionMode fun s => search ∈ s.searchDomains) ∧
    (∀ o : KickoffOutcome, ∃ caOrder zonesOrder,
      (writeConfiguration p config { o with caOrder := caOrder, zonesOrder := zonesOrder }
        ctx.redacted).Alike (writeConfiguration p config o ctx)) ∧
    (∀ o : UpdateOutcome, ∃ tableOrder,
      update p config { o with tableOrder := tableOrder } ctx.redacted = update p config o ctx) ∧
    ∀ o : ResolvConfOutcome, ∃ order,
      (writeResolvConf p config { o with order := order } ctx.redacted).Alike
        (writeResolvConf p config o ctx) := by
  refine ⟨fun o lines hlines => ?_, fun o insecure tls domain addresses ok h => ?_,
    fun o ca hca => ?_, fun o text htext => ?_, fun o => writeConfiguration_redacted o htable,
    fun o => update_redacted o htable, fun o => writeResolvConf_redacted o htable⟩
  · rcases writeConfiguration_cases p config o ctx with ⟨ca, hca, hwrite⟩ | ⟨-, hnone⟩
    · rw [hwrite, List.mem_singleton] at hlines
      cases hlines
      refine ⟨fun zone hzone => tokensOf_loadClauses htable hzone, fun ca' hca' => ?_⟩
      obtain rfl := tlsCertBundle_mem_confLines.mp hca'
      rw [htable] at hca
      exact contributedBy_getEffectiveCa hca
    · rw [hnone] at hlines
      cases hlines
  · exact tokensOf_updateCommands (mem_updateCommands_of_mem_update htable h)
  · exact (contributedBy_effectiveCaFromUris hca).of_usedServersTable
  · refine ⟨?_, fun search hsearch => contributedBy_searchesOf hsearch⟩
    exact eq_resolvConfText_of_mem htable htext

/-- A server beside a global one for the root domain, in mode prefer. -/
def besideGlobal (s : ServerUri) : Context :=
  { Context.initial with
    resolutionMode := .prefer
    currentDomainToServers := some (AList.singleton "." [globalServer, s]) }

/-- The search domain of a bound server makes no difference for resolv.conf. -/
theorem bound_server_confined_prefer :
    ∃ order, (writeResolvConf .plain .plain { Outcomes.allOk.resolvConf with order := order }
      (besideGlobal { boundServer with address := .unspec })).Alike
      (writeResolvConf .plain .plain Outcomes.allOk.resolvConf
        (besideGlobal { boundServer with searchDomains := ["corp.example"] })) := by
  have hredacted : (besideGlobal { boundServer with searchDomains := ["corp.example"] }).redacted =
      besideGlobal { boundServer with address := .unspec } := rfl
  have hconfined := (bound_servers_confined .plain .plain
    (besideGlobal { boundServer with searchDomains := ["corp.example"] }) rfl).2.2.2.2.2.2
  rw [hredacted] at hconfined
  exact hconfined Outcomes.allOk.resolvConf

end Dnsconfd
