import Dnsconfd.UnboundManager.Operations

/-!
# The cache's zones

What the file and the commands do to the zones of the cache, domain by domain.  A restart with the
file that `write_configuration` wrote gives every domain its `fileZone` (`loadZones_confLines`);
the commands of a successful `update` give every domain that they name the zone of its servers and
leave all others alone (`applyCommands_update`).  So an `update` leads to the wanted zones exactly
if every domain that it does not name already has its wanted zone (`Ready`).
-/

namespace Dnsconfd

open Library

variable {p : Platform} {config : Config}

/-! ## Wanted and recorded servers -/

/-- The servers that the context wants to be used for a domain. -/
def wantedServers (ctx : Context) (domain : String) : Option (List ServerUri) :=
  (ctx.currentDomainToServers.bind fun table => table.lookup domain).bind
    (usedServersOf ctx.resolutionMode domain)

/-- The servers of a domain that the context records for the cache. -/
def recordedServers (ctx : Context) (domain : String) : Option (List ServerUri) :=
  ctx.currentUnboundDomainToServers.bind fun table => table.lookup domain

/-- The zone that the command of `get_forward_add_command` denotes. -/
def commandZone (net : Inet) (servers : List ServerUri) : ZoneState where
  addresses := servers.map (serverArg net)
  tls := servers.head?.any fun server => server.protocol = .tls
  insecure := servers.head?.any fun server => server.dnssec = 0

/-- The zone that the lines of `generate_forward_zones` denote. -/
def fileZone (net : Inet) (servers : List ServerUri) : ZoneState where
  addresses := servers.map (serverToUnboundString net)
  tls := servers.any fun server => server.protocol = .tls
  insecure := false

/-- The zone of a domain with the given servers; the root domain is forwarded to the loopback
address if it has none. -/
def renderZone (zone : List ServerUri → ZoneState) (domain : String) :
    Option (List ServerUri) → Option ZoneState
  | some servers => some (zone servers)
  | none => if domain = "." then some loopbackZone else none

/-! ## Commands -/

/-- Execute commands on the zones of the cache. -/
def applyCommands (commands : List UnboundCommand) (zones : Zones) : Zones :=
  commands.foldl (fun zones command => command.apply zones) zones

lemma applyCommands_append (l₁ l₂ : List UnboundCommand) (zones : Zones) :
    applyCommands (l₁ ++ l₂) zones = applyCommands l₂ (applyCommands l₁ zones) :=
  List.foldl_append

/-- `add_domain` sets the zone of its domain. -/
lemma applyCommands_addDomain (net : Inet) (domain : String) (servers : List ServerUri)
    (zones : Zones) :
    applyCommands (addDomain net domain servers) zones =
      Function.update zones domain (some (commandZone net servers)) := by
  cases servers with
  | nil => rfl
  | cons s servers => rfl

/-- `remove_domain` sets the zone of its domain to that of a domain without servers. -/
lemma applyCommands_removeDomain (zone : List ServerUri → ZoneState) (domain : String)
    (zones : Zones) :
    applyCommands (removeDomain domain) zones =
      Function.update zones domain (renderZone zone domain none) := by
  unfold removeDomain renderZone
  by_cases h : domain = "."
  · subst h
    rfl
  · simp only [h, ne_eq, not_false_eq_true, if_true, if_false]
    rfl

/-- The commands that add and change domains. -/
lemma applyCommands_addCommands (order : Enumeration ServerEntry) (old : Option ServerTable)
    (new : ServerTable) (zones : Zones) (domain : String) :
    applyCommands (addCommands p order old new) zones domain =
      ((new.lookup domain).bind fun servers =>
        if unchangedDomain old domain servers then none
        else some (some (commandZone p.inet servers))).getD (zones domain) := by
  have hcommands : applyCommands (addCommands p order old new) zones =
      Table.writeAll (fun domain servers =>
        if unchangedDomain old domain servers then none
        else some (some (commandZone p.inet servers))) (order.visit new.entries) zones := by
    unfold applyCommands addCommands Table.writeAll
    rw [List.foldl_flatMap]
    congr 1
    funext zones entry
    cases hsame : unchangedDomain old entry.1 entry.2 with
    | true => simp [hsame]
    | false =>
      simp only [hsame, Bool.false_eq_true, if_false]
      exact applyCommands_addDomain p.inet entry.1 entry.2 zones
  rw [hcommands, Table.writeAll_visit_apply]

/-- The commands that remove domains. -/
lemma applyCommands_removeCommands (zone : List ServerUri → ZoneState)
    (order : Enumeration ServerEntry) (old : Option ServerTable) (new : ServerTable)
    (zones : Zones) (domain : String) :
    applyCommands (removeCommands order old new) zones domain =
      if (old.bind fun table => table.lookup domain).isSome ∧ new.lookup domain = none then
        renderZone zone domain none
      else zones domain := by
  cases old with
  | none => simp [removeCommands, applyCommands]
  | some table =>
    have hwrite := Table.writeAll_visit_apply (fun domain (_ : List ServerUri) =>
      if (new.lookup domain).isSome then none else some (renderZone zone domain none)) order table
      zones domain
    have hcommands : applyCommands (removeCommands order (some table) new) zones =
        Table.writeAll (fun domain (_ : List ServerUri) =>
          if (new.lookup domain).isSome then none else some (renderZone zone domain none))
          (order.visit table.entries) zones := by
      unfold applyCommands removeCommands Table.writeAll
      dsimp only
      rw [List.foldl_flatMap]
      congr 1
      funext zones entry
      cases hnew : (new.lookup entry.1).isSome with
      | true => simp
      | false =>
        simp only [Bool.false_eq_true, if_false]
        exact applyCommands_removeDomain zone entry.1 zones
    rw [hcommands, hwrite]
    cases hold : table.lookup domain with
    | none => simp [hold]
    | some servers =>
      cases new.lookup domain with
      | none => simp [hold]
      | some servers' => simp [hold]

/-- `update` names a domain in one of its commands: its wanted servers differ from the recorded
ones. -/
def isNamed (old : Option ServerTable) (domain : String) : Option (List ServerUri) → Bool
  | some servers => !unchangedDomain old domain servers
  | none => (old.bind fun table => table.lookup domain).isSome

/-- The commands of `update` set the zones of the domains they name to the wanted ones and leave
all other domains alone. -/
theorem applyCommands_update (addOrder removeOrder : Enumeration ServerEntry)
    (old : Option ServerTable) (new : ServerTable) (zones : Zones) (domain : String) :
    applyCommands (addCommands p addOrder old new ++ removeCommands removeOrder old new) zones
      domain =
      if isNamed old domain (new.lookup domain) then
        renderZone (commandZone p.inet) domain (new.lookup domain)
      else zones domain := by
  rw [applyCommands_append, applyCommands_removeCommands (commandZone p.inet),
    applyCommands_addCommands]
  cases hnew : new.lookup domain with
  | none =>
    cases hold : (old.bind fun table => table.lookup domain).isSome with
    | true => simp [isNamed, hold]
    | false => simp [isNamed, hold]
  | some servers =>
    by_cases hsame : unchangedDomain old domain servers = true
    · simp [isNamed, hsame]
    · simp [isNamed, hsame, renderZone]

/-- `compare_addresses` finds no difference exactly between equal addresses. -/
lemma sameAddress_iff {a b : SockAddr} : sameAddress a b = true ↔ a = b := by
  have hdifferent : ∀ {a b : SockAddr}, sameAddress a b = false → a ≠ b →
      (sameAddress a b = true ↔ a = b) := by
    intro a b hsame hne
    rw [hsame]
    exact ⟨fun h => absurd h (by simp), fun h => absurd h hne⟩
  cases a with
  | unspec =>
    cases b with
    | unspec => exact ⟨fun _ => rfl, fun _ => rfl⟩
    | _ => exact hdifferent rfl (by simp)
  | inet x p =>
    cases b with
    | inet y q =>
      change (decide (x = y) && decide (p = q)) = true ↔ _
      rw [Bool.and_eq_true, decide_eq_true_eq, decide_eq_true_eq, SockAddr.inet.injEq]
    | _ => exact hdifferent rfl (by simp)
  | inet6 x p =>
    cases b with
    | inet6 y q =>
      change (decide (p = q) && decide (x = y)) = true ↔ _
      rw [Bool.and_eq_true, decide_eq_true_eq, decide_eq_true_eq, SockAddr.inet6.injEq]
      exact and_comm
    | _ => exact hdifferent rfl (by simp)

/-- Servers that the code takes to be the same are rendered in the same way. -/
lemma serverArg_of_sameServer {net : Inet} {a b : ServerUri} (h : sameServer a b = true) :
    serverArg net a = serverArg net b ∧ a.protocol = b.protocol ∧ a.dnssec = b.dnssec := by
  simp only [sameServer, Bool.and_eq_true, decide_eq_true_eq] at h
  obtain ⟨⟨⟨⟨⟨⟨haddr, -⟩, -⟩, hdnssec⟩, hprotocol⟩, -⟩, hname⟩ := h
  have heq : a.address = b.address := sameAddress_iff.mp haddr
  refine ⟨?_, hprotocol, hdnssec⟩
  unfold serverArg
  rw [heq, hprotocol, hname]

/-- Lists of servers that the code takes to be the same denote the same zone. -/
lemma commandZone_of_sameServers {net : Inet} {as bs : List ServerUri}
    (h : sameServers as bs = true) : commandZone net as = commandZone net bs := by
  have hargs : as.map (serverArg net) = bs.map (serverArg net) := by
    induction as generalizing bs with
    | nil => cases bs <;> simp_all [sameServers]
    | cons a as ih =>
      cases bs with
      | nil => simp [sameServers] at h
      | cons b bs =>
        rw [sameServers, Bool.and_eq_true] at h
        rw [List.map_cons, List.map_cons, ih h.2, (serverArg_of_sameServer h.1).1]
  unfold commandZone
  rw [hargs]
  cases as with
  | nil => cases bs <;> simp_all [sameServers]
  | cons a as =>
    cases bs with
    | nil => simp [sameServers] at h
    | cons b bs =>
      rw [sameServers, Bool.and_eq_true] at h
      obtain ⟨-, hprotocol, hdnssec⟩ := @serverArg_of_sameServer net a b h.1
      simp [hprotocol, hdnssec]

/-- A list of servers is the same as itself. -/
lemma sameServers_self (servers : List ServerUri) : sameServers servers servers = true := by
  induction servers with
  | nil => rfl
  | cons s servers ih =>
    have haddr : sameAddress s.address s.address = true := sameAddress_iff.mpr rfl
    simp [sameServers, sameServer, haddr, ih]

/-! ## The configuration file -/

/-- Reading lines on top of what the lines below them say. -/
lemma loadClauses_append (l₁ l₂ : List ConfLine) :
    loadClauses (l₁ ++ l₂) = l₁.foldr loadLine (loadClauses l₂) :=
  List.foldr_append

/-- The lines of a zone are read as its `fileZone`. -/
lemma foldr_loadLine_forwardZoneLines (net : Inet) (domain : String) (servers : List ServerUri)
    (zones : List (String × ZoneState)) :
    (forwardZoneLines net domain servers).foldr loadLine (.empty, zones) =
      (.empty, (domain, fileZone net servers) :: zones) := by
  have hadd : ∀ clause : PendingClause,
      (servers.map fun server =>
        ConfLine.forwardAddr (serverToUnboundString net server)).foldr loadLine (clause, zones) =
      ({ clause with
          addresses := servers.map (serverToUnboundString net) ++ clause.addresses }, zones) := by
    intro clause
    induction servers with
    | nil => rfl
    | cons s servers ih => rw [List.map_cons, List.foldr_cons, ih]; rfl
  unfold forwardZoneLines
  rw [List.foldr_append, List.foldr_append]
  simp only [List.foldr_cons, List.foldr_nil, loadLine]
  rw [hadd]
  simp [PendingClause.empty, fileZone]

/-- The zones of the visited domains, in order. -/
def fileEntries (net : Inet) (mode : Mode) (entries : List ServerEntry) :
    List (String × ZoneState) :=
  entries.filterMap fun entry =>
    (usedServersOf mode entry.1 entry.2).map fun used => (entry.1, fileZone net used)

/-- The lines of the visited domains are read as their zones. -/
lemma foldr_loadLine_zoneEntryLines (net : Inet) (mode : Mode) (entries : List ServerEntry)
    (zones : List (String × ZoneState)) :
    (entries.flatMap (zoneEntryLines net mode)).foldr loadLine (.empty, zones) =
      (.empty, fileEntries net mode entries ++ zones) := by
  induction entries with
  | nil => rfl
  | cons e entries ih =>
    rw [List.flatMap_cons, List.foldr_append, ih]
    unfold fileEntries zoneEntryLines usedServersOf
    rw [List.filterMap_cons]
    cases getUsedServers e.2 mode e.1 with
    | nil => rfl
    | cons s used => exact foldr_loadLine_forwardZoneLines net e.1 (s :: used) _

/-- Response policy zones say nothing about forwarding, and the lines above them are read as if
they were not there. -/
lemma loadClauses_generateRpzZones (rpzZones : List RpzZone) :
    (loadClauses (generateRpzZones rpzZones)).2 = [] ∧
      (loadClauses (generateRpzZones rpzZones)).1 = .empty := by
  induction rpzZones with
  | nil => exact ⟨rfl, rfl⟩
  | cons zone rpzZones ih =>
    unfold generateRpzZones at ih ⊢
    rw [List.flatMap_cons, loadClauses_append]
    cases zone.master <;> cases zone.zonefile <;> exact ⟨ih.1, rfl⟩

/-- Looking a domain up among the zones of the visited domains. -/
lemma lookup_fileEntries (net : Inet) (mode : Mode) (entries : List ServerEntry)
    (hnd : entries.NodupKeys) (domain : String) :
    (fileEntries net mode entries).lookup domain =
      ((entries.dlookup domain).bind (usedServersOf mode domain)).map (fileZone net) := by
  induction entries with
  | nil => rfl
  | cons e entries ih =>
    obtain ⟨key, servers⟩ := e
    rw [List.nodupKeys_cons] at hnd
    have hrest := ih hnd.2
    unfold fileEntries at hrest ⊢
    rw [List.filterMap_cons]
    by_cases hkey : domain = key
    · subst hkey
      have hnone : entries.dlookup domain = none := List.dlookup_eq_none.mpr hnd.1
      rw [hnone] at hrest
      rw [List.dlookup_cons_eq]
      cases hused : usedServersOf mode domain servers with
      | none => simpa [hused] using hrest
      | some used => simp [hused]
    · rw [List.dlookup_cons_ne _ _ hkey, ← hrest]
      cases usedServersOf mode key servers with
      | none => rfl
      | some used =>
        have hbeq : (domain == key) = false := by simpa using hkey
        simp [List.lookup_cons, hbeq]

/-- The flag `root_present` tells whether the root domain has used servers. -/
lemma any_rootPresent (mode : Mode) (order : Enumeration ServerEntry) (table : ServerTable) :
    (order.visit table.entries).any (rootPresent mode) =
      ((table.lookup ".").bind (usedServersOf mode ".")).isSome := by
  have hused : ∀ domain servers, (usedServersOf mode domain servers).isSome =
      !(getUsedServers servers mode domain).isEmpty := by
    intro domain servers
    unfold usedServersOf
    cases getUsedServers servers mode domain <;> rfl
  rw [Bool.eq_iff_iff, List.any_eq_true]
  constructor
  · rintro ⟨⟨key, servers⟩, hmem, hroot⟩
    simp only [rootPresent, Bool.and_eq_true, decide_eq_true_eq] at hroot
    obtain ⟨hne, rfl⟩ := hroot
    rw [(Table.mem_visit_iff_lookup order table).mp hmem, Option.bind_some, hused]
    exact hne
  · intro h
    cases hlookup : table.lookup "." with
    | none => rw [hlookup] at h; cases h
    | some servers =>
      rw [hlookup, Option.bind_some, hused] at h
      refine ⟨⟨".", servers⟩, (Table.mem_visit_iff_lookup order table).mpr hlookup, ?_⟩
      simp [rootPresent, h]

/-- The forward zones that the written file describes: those of the domains with used servers, and
the default one if the root domain has none. -/
lemma loadClauses_confLines (o : KickoffOutcome) (ctx : Context) (effectiveCa : String) :
    (loadClauses (confLines p config o ctx effectiveCa)).2 =
      match ctx.currentDomainToServers with
      | none => [(".", loopbackZone)]
      | some table =>
        fileEntries p.inet ctx.resolutionMode (o.zonesOrder.visit table.entries) ++
          if ((table.lookup ".").bind (usedServersOf ctx.resolutionMode ".")).isSome then []
          else [(".", loopbackZone)] := by
  obtain ⟨hzones, hclause⟩ := loadClauses_generateRpzZones config.rpzZones
  have hrpz : loadClauses (generateRpzZones config.rpzZones) = (.empty, []) :=
    Prod.ext hclause hzones
  have hdefault : defaultZoneLines.foldr loadLine (.empty, []) =
      (.empty, [(".", loopbackZone)]) := rfl
  have hhead : ∀ below, [ConfLine.server, .moduleConfig (moduleConfig config),
      .interface ((ipToStr p.inet config.listenAddress).getD ""), .doNotQueryAddress,
      .tlsCertBundle effectiveCa].foldr loadLine below = (.empty, below.2) := fun _ => rfl
  unfold confLines
  rw [List.append_assoc, loadClauses_append, hhead, loadClauses_append, hrpz]
  unfold confZoneLines
  cases ctx.currentDomainToServers with
  | none =>
    dsimp only
    rw [hdefault]
  | some table =>
    dsimp only
    unfold generateForwardZones
    dsimp only
    rw [any_rootPresent, List.foldr_append]
    split_ifs with hroot
    · rw [List.foldr_nil, foldr_loadLine_zoneEntryLines]
    · rw [hdefault, foldr_loadLine_zoneEntryLines]

/-- A cache that starts with the file that `write_configuration` wrote has for every domain the
zone of the servers that the context wants for it. -/
theorem loadZones_confLines (o : KickoffOutcome) (ctx : Context) (effectiveCa domain : String) :
    loadZones (confLines p config o ctx effectiveCa) domain =
      renderZone (fileZone p.inet) domain (wantedServers ctx domain) := by
  have hloopback : (List.lookup domain [(".", loopbackZone)]) =
      renderZone (fileZone p.inet) domain none := by
    by_cases hdomain : domain = "."
    · simp [renderZone, hdomain]
    · have hbeq : (domain == ".") = false := by simpa using hdomain
      simp [renderZone, hdomain, List.lookup_cons, hbeq]
  unfold loadZones wantedServers
  rw [loadClauses_confLines]
  cases htable : ctx.currentDomainToServers with
  | none => exact hloopback
  | some table =>
    have hlookup := lookup_fileEntries p.inet ctx.resolutionMode
      (o.zonesOrder.visit table.entries) (Table.nodupKeys_visit _ _) domain
    rw [Table.dlookup_visit] at hlookup
    dsimp only
    rw [List.lookup_append, hlookup, Option.bind_some]
    cases hused : (table.lookup domain).bind (usedServersOf ctx.resolutionMode domain) with
    | some used => rfl
    | none =>
      rw [Option.map_none, Option.none_or]
      split_ifs with hroot
      · have hdomain : domain ≠ "." := by
          rintro rfl
          rw [hused] at hroot
          cases hroot
        simp [renderZone, hdomain]
      · exact hloopback

end Dnsconfd
