import Dnsconfd.UnboundManager.Reconciliation

/-!
# The incremental update

`update` brings the running cache from the servers it was last given to the ones now wanted, by
commands for the domains that differ only.  The cache is looked at as the map from domains to the
address tokens and the TLS flag last set for them.  A table of servers is rendered as such a map
(`rendering`); the commands of `update` turn the rendering of the old table into that of the new
one, whatever the orders in which the tables are visited, and every change is followed by a flush
of the domain it concerns.
-/

namespace Dnsconfd

open Library

variable {p : Platform}

/-! ## Commands and the domains they name -/

/-- The domain that a command names. -/
def UnboundCommand.domain : UnboundCommand → String
  | forwardAdd _ _ domain _ => domain
  | forwardRemove domain => domain
  | flushZone domain => domain

@[simp] lemma domain_flushZone (domain : String) :
    (UnboundCommand.flushZone domain).domain = domain := rfl

@[simp] lemma domain_getForwardAddCommand (net : Inet) (domain : String)
    (servers : List ServerUri) : (getForwardAddCommand net domain servers).domain = domain := by
  cases servers <;> rfl

/-- The commands of one `update`, in the order in which they are executed. -/
def updateCommands (p : Platform) (o : UpdateOutcome) (old : Option ServerTable)
    (new : ServerTable) : List UnboundCommand :=
  addCommands p o.addOrder old new ++ removeCommands o.removeOrder old new

/-- The map that the cache holds for a table of servers: where each domain is forwarded to, and
whether over TLS. -/
def rendering (net : Inet) (table : Option ServerTable) (domain : String) :
    Option (List String × Bool) :=
  (renderZone (commandZone net) domain (table.bind fun t => t.lookup domain)).map
    ZoneState.forwarding

/-- Commands that all succeed are all executed. -/
lemma executeCommands_eq {commandOk : UnboundCommand → Bool} {commands : List UnboundCommand}
    (h : ∀ command ∈ commands, commandOk command = true) :
    executeCommands commandOk commands = (true, commands.map (.commandExecuted · true)) := by
  have hok : (executeCommands commandOk commands).1 = true := by
    rw [executeCommands_fst]
    exact List.all_eq_true.mpr h
  exact Prod.ext hok (executeCommands_ok hok)

/-- Once the effective CA is known not to differ and every command succeeds, `update` executes its
commands and returns the new table. -/
lemma applyUpdate_eq {o : UpdateOutcome} {old : Option ServerTable} {new : ServerTable}
    (h : ∀ command ∈ updateCommands p o old new, o.commandOk command = true) :
    applyUpdate p o old new =
      (.done new, (updateCommands p o old new).map (.commandExecuted · true)) := by
  have hadds := executeCommands_eq fun c hc => h c (List.mem_append_left _ hc)
  have hremoves := executeCommands_eq fun c hc => h c (List.mem_append_right _ hc)
  simp [applyUpdate, hadds, hremoves, updateCommands]

/-- A command changes no zone but that of the domain it names, and a flush changes none. -/
lemma eq_domain_of_apply_ne {command : UnboundCommand} {zones : Zones} {domain : String}
    (h : command.apply zones domain ≠ zones domain) :
    command.domain = domain ∧ command ≠ .flushZone domain := by
  cases command with
  | flushZone d => exact absurd rfl h
  | forwardAdd insecure tls d addresses =>
    refine ⟨?_, by simp⟩
    by_contra hne
    exact h (Function.update_of_ne (Ne.symm hne) _ _)
  | forwardRemove d =>
    refine ⟨?_, by simp⟩
    by_contra hne
    exact h (Function.update_of_ne (Ne.symm hne) _ _)

/-! ## Every change is flushed -/

/-- After each command that changes a domain, a later command flushes that domain. -/
def FlushesChanges : List UnboundCommand → Prop
  | [] => True
  | command :: commands =>
    (command = .flushZone command.domain ∨ .flushZone command.domain ∈ commands) ∧
      FlushesChanges commands

lemma FlushesChanges.append {l₁ l₂ : List UnboundCommand} (h₁ : FlushesChanges l₁)
    (h₂ : FlushesChanges l₂) : FlushesChanges (l₁ ++ l₂) := by
  induction l₁ with
  | nil => exact h₂
  | cons command l₁ ih =>
    refine ⟨?_, ih h₁.2⟩
    exact h₁.1.imp_right fun hmem => List.mem_append_left l₂ hmem

/-- One pass over a table whose entries contribute commands that flush what they change. -/
lemma flushesChanges_flatMap {commandsOf : ServerEntry → List UnboundCommand}
    (h : ∀ entry, FlushesChanges (commandsOf entry)) (entries : List ServerEntry) :
    FlushesChanges (entries.flatMap commandsOf) := by
  induction entries with
  | nil => exact trivial
  | cons entry entries ih =>
    rw [List.flatMap_cons]
    exact (h entry).append ih

lemma flushesChanges_addDomain (net : Inet) (domain : String) (servers : List ServerUri) :
    FlushesChanges (addDomain net domain servers) := by
  simp [addDomain, FlushesChanges]

lemma flushesChanges_removeDomain (domain : String) : FlushesChanges (removeDomain domain) := by
  by_cases hroot : domain = "."
  · simp [removeDomain, hroot, FlushesChanges, UnboundCommand.domain]
  · simp [removeDomain, hroot, FlushesChanges, UnboundCommand.domain]

/-- The commands of `update` flush what they change. -/
lemma flushesChanges_updateCommands (o : UpdateOutcome) (old : Option ServerTable)
    (new : ServerTable) : FlushesChanges (updateCommands p o old new) := by
  apply FlushesChanges.append
  · refine flushesChanges_flatMap (fun entry => ?_) _
    split_ifs
    · trivial
    · exact flushesChanges_addDomain p.inet entry.1 entry.2
  · cases old with
    | none => trivial
    | some table =>
      refine flushesChanges_flatMap (fun entry => ?_) _
      split_ifs
      · trivial
      · exact flushesChanges_removeDomain entry.1

/-- At each place of a list that flushes its changes, a command that changes a domain is followed
by a flush of it. -/
lemma FlushesChanges.flushZone_mem {before after : List UnboundCommand}
    {command : UnboundCommand} (h : FlushesChanges (before ++ command :: after)) {zones : Zones}
    {domain : String} (hchange : command.apply zones domain ≠ zones domain) :
    .flushZone domain ∈ after := by
  induction before with
  | nil =>
    obtain ⟨rfl, hne⟩ := eq_domain_of_apply_ne hchange
    exact h.1.resolve_left hne
  | cons c before ih => exact ih h.2

/-! ## Domains that are skipped -/

/-- Lists of servers that `compare_servers` takes to be the same have the same command. -/
lemma getForwardAddCommand_of_sameServers {net : Inet} {as bs : List ServerUri}
    (h : sameServers as bs = true) (domain : String) :
    getForwardAddCommand net domain as = getForwardAddCommand net domain bs := by
  have hzone : commandZone net as = commandZone net bs := commandZone_of_sameServers h
  have hcommand : ∀ servers, getForwardAddCommand net domain servers =
      .forwardAdd (commandZone net servers).insecure (commandZone net servers).tls domain
        (commandZone net servers).addresses := by
    intro servers
    cases servers <;> rfl
  rw [hcommand, hcommand, hzone]

/-- A domain of the new table that no command names has, in the old table, servers with the same
command. -/
lemma exists_old_of_not_named {o : UpdateOutcome} {old : Option ServerTable} {new : ServerTable}
    {domain : String} {servers : List ServerUri} (hnew : new.lookup domain = some servers)
    (hskipped : ∀ command ∈ updateCommands p o old new, command.domain ≠ domain) :
    ∃ oldServers, (old.bind fun t => t.lookup domain) = some oldServers ∧
      getForwardAddCommand p.inet domain oldServers =
        getForwardAddCommand p.inet domain servers := by
  have hvisited : (⟨domain, servers⟩ : ServerEntry) ∈ o.addOrder.visit new.entries :=
    (Table.mem_visit_iff_lookup _ _).mpr hnew
  have hunchanged : unchangedDomain old domain servers = true := by
    by_contra hchanged
    refine hskipped (.flushZone domain) (List.mem_append_left _ ?_) rfl
    refine List.mem_flatMap.mpr ⟨_, hvisited, ?_⟩
    simp [hchanged, addDomain]
  unfold unchangedDomain at hunchanged
  cases hold : old.bind fun t => t.lookup domain with
  | none => rw [hold] at hunchanged; cases hunchanged
  | some oldServers =>
    rw [hold] at hunchanged
    exact ⟨oldServers, rfl, (getForwardAddCommand_of_sameServers hunchanged domain).symm⟩

/-! ## The update as a whole -/

/-- A domain that `update` does not name is rendered in the same way before and after. -/
lemma rendering_of_not_named {net : Inet} {old : Option ServerTable} {new : ServerTable}
    {domain : String} (h : isNamed old domain (new.lookup domain) = false) :
    rendering net old domain = rendering net (some new) domain := by
  unfold rendering
  rw [Option.bind_some]
  cases hnew : new.lookup domain with
  | none =>
    rw [hnew, isNamed, Option.isSome_eq_false_iff, Option.isNone_iff_eq_none] at h
    rw [h]
  | some servers =>
    simp only [hnew, isNamed, Bool.not_eq_false'] at h
    unfold unchangedDomain at h
    cases hold : old.bind fun t => t.lookup domain with
    | none => rw [hold] at h; cases h
    | some oldServers =>
      rw [hold] at h
      simp only [renderZone, Option.map_some, commandZone_of_sameServers h]

/-- From the rendering of the old table the commands of `update` lead to that of the new one. -/
lemma rendering_updateCommands {o : UpdateOutcome} {old : Option ServerTable} {new : ServerTable}
    {zones : Zones} (h : ∀ domain, (zones domain).map ZoneState.forwarding =
      rendering p.inet old domain) (domain : String) :
    (applyCommands (updateCommands p o old new) zones domain).map ZoneState.forwarding =
      rendering p.inet (some new) domain := by
  have hcommands := applyCommands_update (p := p) o.addOrder o.removeOrder old new zones domain
  unfold updateCommands
  rw [hcommands]
  cases hnamed : isNamed old domain (new.lookup domain) with
  | true => rfl
  | false =>
    simp only [Bool.false_eq_true, if_false]
    rw [h domain, rendering_of_not_named hnamed]

/-- The incremental update is correct.  If the cache holds the rendering of the old table, the
effective CA does not change and every command succeeds, then `update` returns the table of used
servers, its commands leave the cache with the rendering of that table, each change is flushed
afterwards, and a domain that is skipped has the same command in both tables; servers that compare
equal have equal commands. -/
theorem update_incremental (p : Platform) (config : Config) (o : UpdateOutcome) (ctx : Context)
    {table new : ServerTable} {effectiveCa : String} {zones : Zones}
    (htable : ctx.currentDomainToServers = some table)
    (hnew : new = usedServersTable o.tableOrder table ctx.resolutionMode)
    (hca : ctx.effectiveCa = some effectiveCa)
    (hsame : getEffectiveCa o.caOrder o.readable (some new) ctx.resolutionMode config =
      some effectiveCa)
    (hok : ∀ command ∈ updateCommands p o ctx.currentUnboundDomainToServers new,
      o.commandOk command = true)
    (hzones : ∀ domain, (zones domain).map ZoneState.forwarding =
      rendering p.inet ctx.currentUnboundDomainToServers domain) :
    update p config o ctx = (.done new,
      (updateCommands p o ctx.currentUnboundDomainToServers new).map (.commandExecuted · true)) ∧
    (∀ domain, (applyCommands (updateCommands p o ctx.currentUnboundDomainToServers new) zones
      domain).map ZoneState.forwarding = rendering p.inet (some new) domain) ∧
    (∀ before command after domain,
      updateCommands p o ctx.currentUnboundDomainToServers new = before ++ command :: after →
      command.apply (applyCommands before zones) domain ≠ applyCommands before zones domain →
      .flushZone domain ∈ after) ∧
    (∀ domain servers, new.lookup domain = some servers →
      (∀ command ∈ updateCommands p o ctx.currentUnboundDomainToServers new,
        command.domain ≠ domain) →
      ∃ oldServers, recordedServers ctx domain = some oldServers ∧
        getForwardAddCommand p.inet domain oldServers =
          getForwardAddCommand p.inet domain servers) ∧
    (∀ domain as bs, sameServers as bs = true →
      getForwardAddCommand p.inet domain as = getForwardAddCommand p.inet domain bs) := by
  refine ⟨?_, rendering_updateCommands hzones, ?_, ?_, ?_⟩
  · rw [← applyUpdate_eq hok]
    simp [update, htable, ← hnew, hca, hsame]
  · intro before command after domain hsplit hchange
    have hflush : FlushesChanges (before ++ command :: after) :=
      hsplit ▸ flushesChanges_updateCommands o ctx.currentUnboundDomainToServers new
    exact hflush.flushZone_mem hchange
  · intro domain servers hlookup hskipped
    exact exists_old_of_not_named hlookup hskipped
  · intro domain as bs hservers
    exact getForwardAddCommand_of_sameServers hservers domain

/-- A server at the documentation address that is reached over TLS or in the clear. -/
def documentationServer (protocol : DnsProtocol) : ServerUri :=
  { ServerUri.initial with address := .inet documentationAddress 0, protocol := protocol }

/-- The cache forwards the root domain and `a` over UDP; wanted are `a` as before and `b` over
TLS. -/
def partlyChanged : Context :=
  { Context.initial with
    currentUnboundDomainToServers := some
      ((AList.singleton "." [documentationServer .udp]).insert "a" [documentationServer .udp])
    currentDomainToServers := some
      ((AList.singleton "b" [documentationServer .tls]).insert "a" [documentationServer .udp])
    effectiveCa := some "/etc/pki/dns/ca-bundle.pem" }

/-- The update adds `b`, sends the root domain back to the loopback address and leaves `a` alone. -/
theorem update_partlyChanged :
    ∃ new, update .plain .plain Outcomes.allOk.update partlyChanged = (.done new,
        [.commandExecuted (.forwardAdd false true "b" ["192.0.2.1@853"]) true,
          .commandExecuted (.flushZone "b") true,
          .commandExecuted (.forwardAdd false false "." ["127.0.0.1"]) true,
          .commandExecuted (.flushZone ".") true]) := by
  have hzones : ∀ domain, (renderZone (commandZone Platform.plain.inet) domain
      (recordedServers partlyChanged domain)).map ZoneState.forwarding =
      rendering Platform.plain.inet partlyChanged.currentUnboundDomainToServers domain :=
    fun _ => rfl
  exact ⟨_, (update_incremental .plain .plain Outcomes.allOk.update partlyChanged rfl rfl rfl rfl
    (fun _ _ => rfl) hzones).1⟩

end Dnsconfd
