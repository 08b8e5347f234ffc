import Dnsconfd.DbusServer.Applied
import Dnsconfd.DbusServer.CaStability
import Dnsconfd.DbusServer.GeneratedFiles
import Dnsconfd.DbusServer.Resources
import Dnsconfd.Library.Clauses

/-!
# unbound.conf as a whole

The cache reads unbound.conf as clauses: `server:`, a `forward-zone:` for each zone and an `rpz:` for
each response policy zone, each with its attributes.  Every unbound.conf that the daemon writes is made
from the configuration and from the servers and the mode of the last Update before (`written_run`).
Read back, it has the clauses that these ask for exactly if the texts that go into it are safe
(`unbound_conf_clauses_iff`).  For the zones this concerns domains and names of servers; the rest of
the file has the effective CA, which may come from an Update, and the texts of response policy zones,
none of which is checked or escaped.
-/

namespace Dnsconfd

open Library

variable {p : Platform} {config : Config}

/-! ## Reading clauses -/

/-- A line with one word is a heading, one with two words an attribute with its value; others are
refused. -/
def clauseLine : List String → Option (String ⊕ (String × String))
  | [heading] => some (.inl heading)
  | [key, value] => some (.inr (key, value))
  | _ => none

/-- The words of a line. -/
def lineWords : String ⊕ (String × String) → List String
  | .inl heading => [heading]
  | .inr entry => [entry.1, entry.2]

lemma clauseLine_eq_some_iff {words : List String} {line : String ⊕ (String × String)} :
    clauseLine words = some line ↔ words = lineWords line := by
  constructor
  · intro h
    unfold clauseLine at h
    split at h
    · obtain rfl := Option.some.inj h
      rfl
    · obtain rfl := Option.some.inj h
      rfl
    · cases h
  · rintro rfl
    cases line <;> rfl

/-- The clauses of unbound.conf. -/
def readClauses (text : String) : Option (List (String × List (String × String))) :=
  ((readConf text).mapM clauseLine).bind clausesOf

/-- A file has given clauses exactly if it has their lines. -/
lemma readClauses_eq_some_iff {text : String} {clauses : List (String × List (String × String))} :
    readClauses text = some clauses ↔ readConf text = (clauseLines clauses).map lineWords := by
  have hlines : ∀ (ls : List (List String)) (l : List (String ⊕ (String × String))),
      ls.mapM clauseLine = some l ↔ ls = l.map lineWords := by
    intro ls l
    simp only [mapM_eq_some_iff, clauseLine_eq_some_iff]
    rw [← List.forall₂_map_right_iff (R := (· = ·)), List.forall₂_eq_eq_eq]
  rw [readClauses, Option.bind_eq_some_iff]
  constructor
  · rintro ⟨l, hl, hclauses⟩
    rw [(hlines _ _).mp hl, clausesOf_eq_some_iff.mp hclauses]
  · intro h
    exact ⟨_, (hlines _ _).mpr h, clausesOf_eq_some_iff.mpr rfl⟩

/-! ## The wanted clauses -/

/-- The clause of a zone: its name, an address for each used server and whether they are reached over
TLS. -/
def zoneClause (net : Inet) (zone : String × List ServerUri) : String × List (String × String) :=
  ("forward-zone:", ("name:", zone.1) ::
    (zone.2.map (fun server => ("forward-addr:", serverToUnboundString net server)) ++
      [("forward-tls-upstream:", if zone.2.any (fun server => server.protocol = .tls) then "yes"
        else "no")]))

/-- The clause of a response policy zone. -/
def rpzClause (zone : RpzZone) : String × List (String × String) :=
  ("rpz:", ("name:", zone.name) ::
    (zone.master.toList.flatMap (fun master => [("master:", master), ("allow-notify:", master)]) ++
      zone.zonefile.toList.map (fun zonefile => ("zonefile:", zonefile))))

/-- The wanted clauses: those of the cache itself, the zones that the mode selects, with the default
one if the root domain has no used servers, and the response policy zones. -/
def wantedClauses (p : Platform) (config : Config) (order : Enumeration ServerEntry)
    (table : ServerTable) (mode : Mode) (ca : String) : List (String × List (String × String)) :=
  ("server:", [("module-config:", moduleConfig config),
    ("interface:", (ipToStr p.inet config.listenAddress).getD ""),
    ("do-not-query-address:", "127.0.0.1/8"), ("tls-cert-bundle:", ca)]) ::
    ((usedDomains order table mode).map (zoneClause p.inet) ++
      (if "." ∈ (usedDomains order table mode).map Prod.fst then []
        else [("forward-zone:", [("name:", "."), ("forward-addr:", "127.0.0.1")])]) ++
      config.rpzZones.map rpzClause)

/-- The bundle of certificates that a line names. -/
def ConfLine.bundle : ConfLine → Option String
  | tlsCertBundle path => some path
  | _ => none

/-- The bundle of certificates that unbound.conf names. -/
def bundleOf (lines : List ConfLine) : Option String :=
  lines.findSome? ConfLine.bundle

/-- The effective CA is a word, and so are the masters of response policy zones; their names and files
can be quoted. -/
structure ConfTextsSafe (config : Config) (ca : String) : Prop where
  ca : ca ≠ "" ∧ IsWord ca
  rpzName : ∀ zone ∈ config.rpzZones, IsQuotable zone.name
  rpzMaster : ∀ zone ∈ config.rpzZones, ∀ master ∈ zone.master, master ≠ "" ∧ IsWord master
  rpzFile : ∀ zone ∈ config.rpzZones, ∀ zonefile ∈ zone.zonefile, IsQuotable zonefile

section Clauses

variable {order : Enumeration ServerEntry} {table : ServerTable} {mode : Mode}

lemma map_lineWords_clauseLines (clauses : List (String × List (String × String))) :
    (clauseLines clauses).map lineWords =
      clauses.flatMap fun clause => [clause.1] :: clause.2.map fun entry => [entry.1, entry.2] := by
  simp [clauseLines, List.map_flatMap, lineWords, Function.comp_def]

/-- The lines of the zones are those of their clauses. -/
lemma wantedZones_eq (net : Inet) (order : Enumeration ServerEntry) (table : ServerTable)
    (mode : Mode) :
    wantedZones net order table mode = (clauseLines ((usedDomains order table mode).map
      (zoneClause net) ++ if "." ∈ (usedDomains order table mode).map Prod.fst then []
        else [("forward-zone:", [("name:", "."), ("forward-addr:", "127.0.0.1")])])).map lineWords := by
  have hblock : ∀ zone : String × List ServerUri, wantedBlock net zone.1 zone.2 =
      [(zoneClause net zone).1] :: (zoneClause net zone).2.map fun entry => [entry.1, entry.2] := by
    intro zone
    simp [wantedBlock, zoneClause, Function.comp_def]
  rw [map_lineWords_clauseLines, List.flatMap_append, List.flatMap_map]
  simp only [wantedZones, hblock]
  split_ifs <;> rfl

/-- The lines of response policy zones are those of their clauses. -/
lemma map_meant_generateRpzZones (zones : List RpzZone) :
    (generateRpzZones zones).map ConfLine.meant =
      (clauseLines (zones.map rpzClause)).map lineWords := by
  rw [map_lineWords_clauseLines, List.flatMap_map, generateRpzZones, List.map_flatMap]
  refine List.flatMap_congr fun zone _ => ?_
  obtain ⟨name, master, zonefile⟩ := zone
  cases master <;> cases zonefile <;> rfl

/-- The lines of unbound.conf are meant to be those of the wanted clauses. -/
lemma map_meant_confLines {k : KickoffOutcome} {ctx : Context}
    (htable : ctx.currentDomainToServers = some table) (ca : String) :
    (confLines p config k ctx ca).map ConfLine.meant =
      (clauseLines (wantedClauses p config k.zonesOrder table ctx.resolutionMode ca)).map
        lineWords := by
  have hserver : ∀ rest : List (String × List (String × String)),
      (clauseLines (("server:", [("module-config:", moduleConfig config),
        ("interface:", (ipToStr p.inet config.listenAddress).getD ""),
        ("do-not-query-address:", "127.0.0.1/8"), ("tls-cert-bundle:", ca)]) :: rest)).map lineWords =
      [["server:"], ["module-config:", moduleConfig config],
        ["interface:", (ipToStr p.inet config.listenAddress).getD ""],
        ["do-not-query-address:", "127.0.0.1/8"], ["tls-cert-bundle:", ca]] ++
        (clauseLines rest).map lineWords := by
    intro rest
    simp [clauseLines, lineWords]
  have happend : ∀ a b : List (String × List (String × String)),
      clauseLines (a ++ b) = clauseLines a ++ clauseLines b := fun a b => List.flatMap_append
  have hzones : confZoneLines p k.zonesOrder ctx.currentDomainToServers ctx.resolutionMode =
      generateForwardZones p.inet k.zonesOrder table ctx.resolutionMode := by
    rw [htable]
    rfl
  rw [wantedClauses, hserver, happend, List.map_append, ← wantedZones_eq,
    ← map_meant_generateForwardZones, ← map_meant_generateRpzZones, confLines, hzones]
  simp [ConfLine.meant]

/-- The order in which the table is visited is the order of the zones, and nothing else depends on
it. -/
lemma wantedClauses_perm (order order' : Enumeration ServerEntry) (ca : String) :
    ((clauseLines (wantedClauses p config order table mode ca)).map lineWords).Perm
      ((clauseLines (wantedClauses p config order' table mode ca)).map lineWords) := by
  have hdomains : (usedDomains order table mode).Perm (usedDomains order' table mode) :=
    (Enumeration.visit_perm_visit order order' (List.Perm.refl _)).filterMap _
  have hroot : "." ∈ (usedDomains order table mode).map Prod.fst ↔
      "." ∈ (usedDomains order' table mode).map Prod.fst := (hdomains.map Prod.fst).mem_iff
  have hclauses : (wantedClauses p config order table mode ca).Perm
      (wantedClauses p config order' table mode ca) := by
    unfold wantedClauses
    rw [if_congr hroot rfl rfl]
    exact (((hdomains.map _).append_right _).append_right _).cons _
  exact (hclauses.flatMap_right _).map _

/-- The lines of response policy zones are clean exactly if their texts are safe. -/
lemma isClean_generateRpzZones_iff (zones : List RpzZone) :
    (∀ line ∈ generateRpzZones zones, line.IsClean) ↔ ∀ zone ∈ zones, IsQuotable zone.name ∧
      (∀ master ∈ zone.master, master ≠ "" ∧ IsWord master) ∧
      ∀ zonefile ∈ zone.zonefile, IsQuotable zonefile := by
  rw [generateRpzZones, List.forall_mem_flatMap]
  refine forall₂_congr fun zone _ => ?_
  obtain ⟨name, master, zonefile⟩ := zone
  cases master <;> cases zonefile <;> simp [ConfLine.IsClean]

/-- The lines of unbound.conf are clean exactly if all texts that go into it are safe. -/
lemma isClean_confLines_iff (hnet : p.inet.PrintsWords) (hlisten : config.listenAddress.isIp = true)
    (hip : ∀ entry ∈ table.entries, ∀ server ∈ entry.2, server.address.isIp = true)
    {k : KickoffOutcome} {ctx : Context} (htable : ctx.currentDomainToServers = some table)
    (ca : String) :
    (∀ line ∈ confLines p config k ctx ca, line.IsClean) ↔
      ZoneTextsSafe ctx.resolutionMode table ∧ ConfTextsSafe config ca := by
  have hmodules : IsQuotable (moduleConfig config) := by
    unfold moduleConfig
    split_ifs <;> decide
  have hinterface : (ipToStr p.inet config.listenAddress).getD "" ≠ "" ∧
      IsWord ((ipToStr p.inet config.listenAddress).getD "") := by
    cases haddress : config.listenAddress with
    | unspec => rw [haddress] at hlisten; cases hlisten
    | inet a port => exact hnet.ntop4 a
    | inet6 a port => exact hnet.ntop6 a
  have hzones : confZoneLines p k.zonesOrder ctx.currentDomainToServers ctx.resolutionMode =
      generateForwardZones p.inet k.zonesOrder table ctx.resolutionMode := by
    rw [htable]
    rfl
  have hsafe := readConf_generateForwardZones_iff hnet hip k.zonesOrder ctx.resolutionMode
  rw [← map_meant_generateForwardZones, readConf_confText_iff] at hsafe
  have hserver : (∀ line ∈ [ConfLine.server, .moduleConfig (moduleConfig config),
      .interface ((ipToStr p.inet config.listenAddress).getD ""), .doNotQueryAddress,
      .tlsCertBundle ca], line.IsClean) ↔ ca ≠ "" ∧ IsWord ca := by
    simp [ConfLine.IsClean, hmodules, hinterface.1, hinterface.2]
  rw [confLines, hzones, List.forall_mem_append, List.forall_mem_append, hserver, hsafe,
    isClean_generateRpzZones_iff]
  constructor
  · rintro ⟨⟨hca, hzones⟩, hrpz⟩
    exact ⟨hzones, hca, fun zone hz => (hrpz zone hz).1, fun zone hz => (hrpz zone hz).2.1,
      fun zone hz => (hrpz zone hz).2.2⟩
  · rintro ⟨hzones, hconf⟩
    exact ⟨⟨hconf.ca, hzones⟩,
      fun zone hz => ⟨hconf.rpzName zone hz, hconf.rpzMaster zone hz, hconf.rpzFile zone hz⟩⟩

end Clauses

/-! ## Every unbound.conf of a run -/

/-- The lines are those that the configuration and the last Update in the log ask for. -/
def WrittenFor (p : Platform) (config : Config) (log : List Effect) (lines : List ConfLine) : Prop :=
  ∃ k ctx table ca, (∀ s ∈ (lastUpdate log).1, s.WellFormed) ∧
    serverListToHashTable p (config.staticServers ++ (lastUpdate log).1) = some table ∧
    ctx.currentDomainToServers = some table ∧ ctx.resolutionMode = (lastUpdate log).2 ∧
    getEffectiveCa k.caOrder k.readable (some table) (lastUpdate log).2 config = some ca ∧
    lines = confLines p config k ctx ca

/-- Whenever unbound.conf was written, it was written for the last Update before. -/
def ConfsWritten (p : Platform) (config : Config) (log : List Effect) : Prop :=
  ∀ before lines after, log = before ++ .confWritten lines :: after →
    WrittenFor p config before lines

lemma ConfsWritten.append {log l : List Effect} (h : ConfsWritten p config log)
    (hl : ∀ lines, .confWritten lines ∉ l) : ConfsWritten p config (log ++ l) := by
  intro before lines after heq
  rcases List.append_eq_append_iff.mp heq with ⟨rest, rfl, hrest⟩ | ⟨rest, hlog, hrest⟩
  · exact absurd (hrest ▸ List.mem_append_right _ List.mem_cons_self) (hl lines)
  · cases rest with
    | nil =>
      rw [List.nil_append] at hrest
      exact absurd (hrest ▸ List.mem_cons_self) (hl lines)
    | cons e rest =>
      obtain ⟨rfl, -⟩ := List.cons.inj hrest
      exact h before lines rest hlog

lemma ConfsWritten.concat {log : List Effect} {lines : List ConfLine} (h : ConfsWritten p config log)
    (hlines : WrittenFor p config log lines) :
    ConfsWritten p config (log ++ [.confWritten lines]) := by
  intro before lines' after heq
  rcases List.eq_nil_or_concat after with rfl | ⟨after, e, rfl⟩
  · obtain ⟨rfl, hsame⟩ := List.append_inj' heq rfl
    rw [← Effect.confWritten.inj (List.singleton_inj.mp hsame)]
    exact hlines
  · rw [List.concat_eq_append, ← List.cons_append, ← List.append_assoc] at heq
    exact h before lines' after (List.append_inj' heq rfl).1

/-- A kickoff writes unbound.conf for the servers in use, or not at all. -/
lemma kickoff_writes (k : KickoffOutcome) (ctx : Context) :
    (∃ ca, getEffectiveCa k.caOrder k.readable (updateContext p config ctx).currentDomainToServers
        ctx.resolutionMode config = some ca ∧
      (fsmStartingEventKickoff p config k ctx).effects =
        [.monitorCreated, .confWritten (confLines p config k (updateContext p config ctx) ca)]) ∨
    ∀ lines, .confWritten lines ∉ (fsmStartingEventKickoff p config k ctx).effects := by
  unfold fsmStartingEventKickoff
  cases k.monitorCreated with
  | false => exact Or.inr (by simp)
  | true =>
    rcases writeConfiguration_cases p config k (updateContext p config ctx) with
      ⟨ca, hca, h⟩ | ⟨-, heffects⟩
    · exact Or.inl ⟨ca, hca, by simp [h]⟩
    · exact Or.inr (by simp [heffects])

lemma ConfsWritten.edge (hstatic : ∀ s ∈ config.staticServers, s.WellFormed) {o : Outcomes}
    {ctx : Context} {event : FsmEvent} {log : List Effect} {r : ActionResult}
    (h : ConfsWritten p config log)
    (happlied : AppliedIn p config (lastUpdate log).1 (lastUpdate log).2 ctx event)
    (hservers : HoldsWellFormed p ctx.serverFields) (hedge : Edge p config o ctx event r) :
    ConfsWritten p config (log ++ .transitionMade ctx.currentState event :: r.effects) := by
  by_cases hkickoff : isKickoff ctx.currentState event = true
  swap
  · refine h.append fun lines hmem => ?_
    rcases List.mem_cons.mp hmem with hmem | hmem
    · cases hmem
    · exact hkickoff (hedge.isOf hmem)
  obtain ⟨hlive, hne⟩ := isLive_of_isKickoff hkickoff
  have hmode := happlied.mode hlive
  have hdynamic := happlied.dynamic hlive
  rw [if_neg hne] at hdynamic
  obtain ⟨n, hn, rfl⟩ := hedge.kickoff_or.resolve_right (by simp [hkickoff])
  rcases @kickoff_writes p config o.kickoff ctx with ⟨ca, hca, heffects⟩ | hnone
  · -- the effects before unbound.conf is written bring no Update
    let first := Effect.transitionMade ctx.currentState event :: (n ++ [.monitorCreated])
    have hsplit : log ++ .transitionMade ctx.currentState event ::
        (n ++ (fsmStartingEventKickoff p config o.kickoff ctx).effects) = (log ++ first) ++
          [.confWritten (confLines p config o.kickoff (updateContext p config ctx) ca)] := by
      simp [heffects, first]
    have hfirst : ∀ e ∈ first, (∀ lines, e ≠ .confWritten lines) ∧ ∀ D m, e ≠ .updateParsed D m := by
      rcases hn with rfl | rfl <;> simp [first]
    have hlast : lastUpdate (log ++ first) = lastUpdate log :=
      lastUpdate_append fun D m hmem => (hfirst _ hmem).2 D m rfl
    have htable := hservers.updateContext_isSome hstatic
    obtain ⟨table, htable⟩ := Option.isSome_iff_exists.mp htable
    dsimp only
    rw [hsplit]
    refine (h.append fun lines hmem => (hfirst _ hmem).1 lines rfl).concat
      ⟨o.kickoff, updateContext p config ctx, table, ca, ?_, ?_, htable, ?_, ?_, rfl⟩
    · rw [hlast, ← hdynamic]
      exact hservers.current
    · rw [hlast, ← hdynamic]
      exact htable
    · rw [hlast]
      exact hmode
    · rw [hlast, ← hmode, ← htable]
      exact hca
  · refine h.append fun lines hmem => ?_
    rcases List.mem_cons.mp hmem with hmem | hmem
    · cases hmem
    rcases List.mem_append.mp hmem with hmem | hmem
    · rcases hn with rfl | rfl <;> simp at hmem
    · exact hnone lines hmem

/-- Every unbound.conf of a run is written for the last Update before. -/
lemma confsWritten_run (hstatic : ∀ s ∈ config.staticServers, s.WellFormed) (is : List Input) :
    ConfsWritten p config ((daemon p config).run is).log := by
  have hinitial : Applied p config Daemon.initial.moment ∧ ConfsWritten p config Daemon.initial.log :=
    ⟨applied_initial, fun before lines after heq => by simp [Daemon.initial] at heq⟩
  refine (invariant_of_micro (p := p) (d := .initial)
    (J := fun a => Applied p config a ∧ ConfsWritten p config a.log) ?_ hinitial
    (backed_run hstatic is).1).2
  rintro a b ⟨happlied, h⟩ hstep
  refine ⟨happlied.micro hstep, ?_⟩
  cases hstep with
  | edge hok hedge => exact h.edge hstatic happlied.1 hok.servers hedge
  | receive | skipped => exact h
  | parsed | refused | replied | rejected | reloadReplied | nameLost => exact h.append (by simp)

/-- In every run, whatever is sent to the daemon and whatever the outcomes: the CA that an unbound.conf
names is one that is chosen from the configuration and the last Update before it, and read back, the file
has the clauses that these ask for, with the zones in some order, exactly if the texts that go into it
are safe. -/
theorem unbound_conf_clauses_iff (p : Platform) (hp : p.SortPermutes) (hnet : p.inet.PrintsWords)
    (config : Config) (hstatic : ∀ s ∈ config.staticServers, s.WellFormed)
    (hlisten : config.listenAddress.isIp = true) (is : List Input) (before after : List Effect)
    (lines : List ConfLine)
    (hlog : ((daemon p config).run is).log = before ++ .confWritten lines :: after) :
    let D := (lastUpdate before).1
    let mode := (lastUpdate before).2
    ∃ table ca, serverListToHashTable p (config.staticServers ++ D) = some table ∧
      bundleOf lines = some ca ∧
      (∃ caOrder readable, getEffectiveCa caOrder readable (some table) mode config = some ca) ∧
      ((∃ zonesOrder, readClauses (confText lines) =
          some (wantedClauses p config zonesOrder table mode ca)) ↔
        ZoneTextsSafe mode table ∧ ConfTextsSafe config ca) := by
  intro D mode
  obtain ⟨k, ctx, table, ca, hdynamic, htable, hctx, hmode, hca, rfl⟩ :=
    confsWritten_run hstatic is before lines after hlog
  refine ⟨table, ca, htable, rfl, ⟨k.caOrder, k.readable, hca⟩, ?_⟩
  have hip : ∀ entry ∈ table.entries, ∀ server ∈ entry.2, server.address.isIp = true := by
    intro entry hentry server hserver
    have hlookup : table.lookup entry.1 = some entry.2 := AList.mem_lookup_iff.mpr hentry
    have hmem := ((ne_nil_of_lookup_serverListToHashTable hp htable hlookup).2 server).mp hserver
    rcases List.mem_append.mp hmem.1 with hmem | hmem
    · exact (hstatic server hmem).address
    · exact (hdynamic server hmem).address
  have hclean := @isClean_confLines_iff p config table hnet hlisten hip k ctx hctx ca
  rw [hmode] at hclean
  have hmeant := @map_meant_confLines p config table k ctx hctx ca
  rw [hmode] at hmeant
  simp only [readClauses_eq_some_iff]
  constructor
  · rintro ⟨zonesOrder, hread⟩
    refine hclean.mp ((readConf_confText_perm_iff _).mp ?_)
    rw [hread, hmeant]
    exact wantedClauses_perm zonesOrder k.zonesOrder ca
  · intro hsafe
    refine ⟨k.zonesOrder, ?_⟩
    rw [← hmeant]
    exact (readConf_confText_iff _).mpr (hclean.mpr hsafe)

/-- A configuration with a response policy zone and a server that is reached over TLS. -/
def rpzConfig : Config :=
  { Config.plain with
    rpzZones := [⟨"rpz.example", some "192.0.2.53", none⟩]
    staticServers := [{ tlsServer 0 "/a.pem" with name := some "dns.example" }] }

/-- The unbound.conf with which the daemon starts has the clauses of the server and of the response
policy zone. -/
theorem unbound_conf_clauses_rpz :
    ∃ before lines after, ((daemon .idna rpzConfig).run [.ok .nameAcquired]).log =
        before ++ .confWritten lines :: after ∧
      ∃ table ca, table.entries ≠ [] ∧ ∃ zonesOrder, readClauses (confText lines) =
        some (wantedClauses .idna rpzConfig zonesOrder table .backup ca) := by
  let log := ((daemon .idna rpzConfig).run [.ok .nameAcquired]).log
  obtain ⟨lines, hlines, hbundle⟩ : ∃ lines, log = log.take 2 ++ .confWritten lines :: log.drop 3 ∧
      bundleOf lines = some "/a.pem" := ⟨_, rfl, by decide⟩
  refine ⟨log.take 2, lines, log.drop 3, hlines, ?_⟩
  have hstatic : ∀ s ∈ rpzConfig.staticServers, s.WellFormed := by
    intro s hs
    obtain rfl := List.mem_singleton.mp hs
    exact ⟨⟨rfl, by decide, Or.inr rfl, by decide, by simp [tlsServer, ServerUri.initial]⟩, by decide,
      by decide⟩
  obtain ⟨table, ca, htable, hca, -, hiff⟩ :=
    unbound_conf_clauses_iff .idna (fun _ _ => List.perm_insertionSort _ _) printsWords_loopback
      rpzConfig hstatic rfl [.ok .nameAcquired] _ _ lines hlines
  have htables : ∀ t ∈ serverListToHashTable .idna (rpzConfig.staticServers ++ []),
      t.entries ≠ [] ∧ ZoneTextsSafe .backup t := by
    decide
  obtain ⟨hne, hzones⟩ := htables table htable
  refine ⟨table, ca, hne, hiff.mpr ⟨hzones, ?_⟩⟩
  obtain rfl := Option.some.inj (hbundle.symm.trans hca)
  constructor <;> decide

end Dnsconfd
