import Dnsconfd.Fsm.Context

/-!
# Operations on the cache and on resolv.conf

`write_configuration`, `update` and `write_resolv_conf` of `unbound_manager.c`, each with the
outcomes of its system calls as an argument and its effects as part of its result.
-/

namespace Dnsconfd

open Library

/-! ## Writing the configuration file -/

/-- The modules of the cache, depending on response policy zones and DNSSEC. -/
def moduleConfig (config : Config) : String :=
  if config.rpzZones ≠ [] then
    if config.dnssecEnabled then "ipsecmod respip validator iterator" else "ipsecmod respip iterator"
  else if config.dnssecEnabled then "ipsecmod validator iterator"
  else "ipsecmod iterator"

/-- The lines of the forward zones in `unbound.conf`. -/
def confZoneLines (p : Platform) (order : Enumeration ServerEntry)
    (domainToServers : Option ServerTable) (mode : Mode) : List ConfLine :=
  match domainToServers with
  | some table => generateForwardZones p.inet order table mode
  | none => defaultZoneLines

/-- The lines that a successful `write_configuration` leaves in `unbound.conf`. -/
def confLines (p : Platform) (config : Config) (o : KickoffOutcome) (ctx : Context)
    (effectiveCa : String) : List ConfLine :=
  [.server, .moduleConfig (moduleConfig config),
    .interface ((ipToStr p.inet config.listenAddress).getD ""), .doNotQueryAddress,
    .tlsCertBundle effectiveCa] ++
    confZoneLines p o.zonesOrder ctx.currentDomainToServers ctx.resolutionMode ++
    generateRpzZones config.rpzZones

/-- The result of an operation that returns zero or sets an error text. -/
structure OperationResult where
  error : Option String
  ctx : Context
  effects : List Effect

/-- `write_configuration`.  The effective CA is replaced before the zones are written, so it stays
replaced if writing them fails. -/
def writeConfiguration (p : Platform) (config : Config) (o : KickoffOutcome) (ctx : Context) :
    OperationResult :=
  if !o.confOpens then ⟨some "Failed to open unbound config file", ctx, []⟩
  else if !o.listenWritten then
    ⟨some "Failed to write unbound interface configuration", ctx, []⟩
  else
    match getEffectiveCa o.caOrder o.readable ctx.currentDomainToServers ctx.resolutionMode
        config with
    | none => ⟨some "Failed to determine Unbound effective CA", ctx, []⟩
    | some effectiveCa =>
      let ctx' := { ctx with effectiveCa := some effectiveCa }
      if ctx.currentDomainToServers.isSome && !o.zonesWritten then
        ⟨some "Failed to generate Unbound forward zones", ctx', []⟩
      else if config.rpzZones ≠ [] && !o.rpzWritten then
        ⟨some "Failed to generate Unbound RPZ configuration", ctx', []⟩
      else if !o.confClean then
        ⟨some "Error encountered while writing Unbound configuration", ctx', []⟩
      else if !o.confCloses then ⟨some "Failed to close Unbound configuration file", ctx', []⟩
      else ⟨none, ctx', [.confWritten (confLines p config o ctx effectiveCa)]⟩

/-! ## Updating the running cache -/

/-- `compare_addresses`, as the test for equality. -/
def sameAddress : SockAddr → SockAddr → Bool
  | .inet a p, .inet b q => a = b && p = q
  | .inet6 a p, .inet6 b q => p = q && a = b
  | .unspec, .unspec => true
  | _, _ => false

/-- The body of the loop of `compare_servers` in `unbound_manager.c`, as the test for equality:
routing domains, search domains and networks are not looked at. -/
def sameServer (a b : ServerUri) : Bool :=
  sameAddress a.address b.address && a.priority = b.priority && a.interface = b.interface &&
    a.dnssec = b.dnssec && a.protocol = b.protocol &&
    a.certificationAuthority = b.certificationAuthority && a.name = b.name

/-- `compare_servers` of `unbound_manager.c`, as the test for equality. -/
def sameServers : List ServerUri → List ServerUri → Bool
  | [], [] => true
  | a :: as, b :: bs => sameServer a b && sameServers as bs
  | _, _ => false

/-- The used servers of a domain, if there are any. -/
def usedServersOf (mode : Mode) (domain : String) (servers : List ServerUri) :
    Option (List ServerUri) :=
  match getUsedServers servers mode domain with
  | [] => none
  | usedServers => some usedServers

/-- The used servers of a domain, if there are any, in terms of `get_used_servers`. -/
lemma usedServersOf_eq_some_iff {mode : Mode} {domain : String} {servers used : List ServerUri} :
    usedServersOf mode domain servers = some used ↔
      getUsedServers servers mode domain = used ∧ used ≠ [] := by
  unfold usedServersOf
  cases getUsedServers servers mode domain with
  | nil =>
    simp only [reduceCtorEq, false_iff, not_and, not_not]
    exact fun h => h.symm
  | cons s rest =>
    simp only [Option.some.injEq, iff_self_and]
    rintro rfl
    simp

/-- The first loop of `update`: the table `new_unbound_domain_to_servers`.  The copies it holds are
equal to the servers they are copied from. -/
def usedServersTable (order : Enumeration ServerEntry) (domainToServers : ServerTable)
    (mode : Mode) : ServerTable :=
  Table.collect (usedServersOf mode) (order.visit domainToServers.entries)

/-- The test for a domain whose servers in the running cache are the wanted ones. -/
def unchangedDomain (old : Option ServerTable) (domain : String) (usedServers : List ServerUri) :
    Bool :=
  match old.bind fun table => table.lookup domain with
  | some oldServers => sameServers usedServers oldServers
  | none => false

/-- The commands of the second loop of `update`, which adds and changes domains. -/
def addCommands (p : Platform) (order : Enumeration ServerEntry) (old : Option ServerTable)
    (new : ServerTable) : List UnboundCommand :=
  (order.visit new.entries).flatMap fun entry =>
    if unchangedDomain old entry.1 entry.2 then [] else addDomain p.inet entry.1 entry.2

/-- The commands of the third loop of `update`, which removes domains. -/
def removeCommands (order : Enumeration ServerEntry) (old : Option ServerTable)
    (new : ServerTable) : List UnboundCommand :=
  match old with
  | none => []
  | some table =>
    (order.visit table.entries).flatMap fun entry =>
      if (new.lookup entry.1).isSome then [] else removeDomain entry.1

/-- Execute commands until one of them fails. -/
def executeCommands (commandOk : UnboundCommand → Bool) : List UnboundCommand → Bool × List Effect
  | [] => (true, [])
  | command :: commands =>
    if commandOk command then
      let rest := executeCommands commandOk commands
      (rest.1, .commandExecuted command true :: rest.2)
    else (false, [.commandExecuted command false])

/-- Executing commands succeeds exactly if each of them does. -/
lemma executeCommands_fst (commandOk : UnboundCommand → Bool) (commands : List UnboundCommand) :
    (executeCommands commandOk commands).1 = commands.all commandOk := by
  induction commands with
  | nil => rfl
  | cons command commands ih =>
    rw [executeCommands, List.all_cons]
    split_ifs with hcommand
    · rw [hcommand, Bool.true_and]
      exact ih
    · rw [Bool.not_eq_true] at hcommand
      rw [hcommand, Bool.false_and]

/-- Commands that all succeed. -/
lemma executeCommands_ok {commandOk : UnboundCommand → Bool} {commands : List UnboundCommand}
    (h : (executeCommands commandOk commands).1 = true) :
    (executeCommands commandOk commands).2 = commands.map (.commandExecuted · true) := by
  induction commands with
  | nil => rfl
  | cons command commands ih =>
    unfold executeCommands at h ⊢
    split_ifs at h ⊢
    rw [List.map_cons]
    exact congrArg _ (ih h)

/-- The three ways in which `update` returns: 0 with the table now in use, 1, and -1. -/
inductive UpdateResult where
  | done (result : ServerTable)
  | reload
  | error (errorString : Option String)

/-- The loops of `update` that issue commands, once the effective CA is known not to differ. -/
def applyUpdate (p : Platform) (o : UpdateOutcome) (old : Option ServerTable)
    (new : ServerTable) : UpdateResult × List Effect :=
  let adds := executeCommands o.commandOk (addCommands p o.addOrder old new)
  if !adds.1 then (.error (some "Failed to add domain to Unbound"), adds.2)
  else
    let removes := executeCommands o.commandOk (removeCommands o.removeOrder old new)
    if !removes.1 then (.error none, adds.2 ++ removes.2)
    else (.done new, adds.2 ++ removes.2)

/-- `update`. -/
def update (p : Platform) (config : Config) (o : UpdateOutcome) (ctx : Context) :
    UpdateResult × List Effect :=
  match ctx.currentDomainToServers with
  | none => (.error none, [.nullUse .domainTable])
  | some table =>
    let new := usedServersTable o.tableOrder table ctx.resolutionMode
    match getEffectiveCa o.caOrder o.readable (some new) ctx.resolutionMode config with
    | none => (.error (some "Failed to determine new effective CA of Unbound"), [])
    | some newEffectiveCa =>
      match ctx.effectiveCa with
      | none => (.error none, [.nullUse .effectiveCa])
      | some effectiveCa =>
        if newEffectiveCa ≠ effectiveCa then (.reload, [])
        else applyUpdate p o ctx.currentUnboundDomainToServers new

/-- `update` returns 0 only after every command has been executed with success. -/
lemma applyUpdate_done {p : Platform} {o : UpdateOutcome} {old : Option ServerTable}
    {new result : ServerTable} {effects : List Effect}
    (h : applyUpdate p o old new = (.done result, effects)) :
    result = new ∧ (executeCommands o.commandOk (addCommands p o.addOrder old new)).1 = true ∧
      (executeCommands o.commandOk (removeCommands o.removeOrder old new)).1 = true ∧
      effects = (executeCommands o.commandOk (addCommands p o.addOrder old new)).2 ++
        (executeCommands o.commandOk (removeCommands o.removeOrder old new)).2 := by
  unfold applyUpdate at h
  dsimp only at h
  split_ifs at h with hadds hremoves
  · cases h
  · cases h
  · obtain ⟨hresult, heffects⟩ := Prod.mk.inj h
    exact ⟨(UpdateResult.done.inj hresult).symm, by simpa using hadds, by simpa using hremoves,
      heffects.symm⟩

/-- What `update` returns with 0 is the table of used servers, which it has applied. -/
lemma update_done {p : Platform} {config : Config} {o : UpdateOutcome} {ctx : Context}
    {result : ServerTable} {effects : List Effect}
    (h : update p config o ctx = (.done result, effects)) :
    ∃ table, ctx.currentDomainToServers = some table ∧
      result = usedServersTable o.tableOrder table ctx.resolutionMode ∧
      applyUpdate p o ctx.currentUnboundDomainToServers result = (.done result, effects) := by
  unfold update at h
  cases htable : ctx.currentDomainToServers with
  | none => rw [htable] at h; cases h
  | some table =>
    rw [htable] at h
    dsimp only at h
    split at h
    · cases h
    · split at h
      · cases h
      · split_ifs at h with hca
        · cases h
        · have hnew := (applyUpdate_done h).1
          exact ⟨table, rfl, hnew, by rw [← hnew] at h; exact h⟩

/-! ## resolv.conf -/

/-- The search domains written so far, extended by those of one server. -/
def appendSearches (searches : List String) (server : ServerUri) : List String :=
  server.searchDomains.foldl
    (fun acc search => if search ∈ acc then acc else acc ++ [search]) searches

/-- The search domains of all used servers in the order in which they are written. -/
def searchesOf (order : Enumeration ServerEntry) (domainToServers : ServerTable) (mode : Mode) :
    List String :=
  (order.visit domainToServers.entries).foldl
    (fun acc entry => (getUsedServers entry.2 mode entry.1).foldl appendSearches acc) []

/-- The line with the search domains: the first one follows `search`, the others a blank. -/
def searchLine : List String → String
  | [] => ""
  | first :: rest => rest.foldl (fun text search => text ++ " " ++ search) ("search " ++ first) ++ "\n"

/-- The content that `write_resolv_conf` writes. -/
def resolvConfText (p : Platform) (config : Config) (order : Enumeration ServerEntry)
    (domainToServers : ServerTable) (mode : Mode) : String :=
  "#Generated by dnsconfd\n" ++ searchLine (searchesOf order domainToServers mode) ++
    (match config.resolverOptions with
      | some options => "options " ++ options ++ "\n"
      | none => "") ++
    "nameserver " ++ (ipToStr p.inet config.listenAddress).getD "" ++ "\n"

/-- The part of `write_resolv_conf` after the backup has been taken. -/
def writeResolvConfFile (p : Platform) (config : Config) (o : ResolvConfOutcome) (ctx : Context) :
    OperationResult :=
  if !o.opens then ⟨some "Failed to open resolv.conf", ctx, []⟩
  else
    match ctx.currentDomainToServers with
    | none => ⟨none, ctx, [.resolvConfOpened, .nullUse .domainTable]⟩
    | some table =>
      if !o.clean then
        ⟨some "Error encountered while writing to resolv.conf", ctx, [.resolvConfOpened]⟩
      else if !o.closes then
        ⟨some "Error encountered while closing resolv.conf", ctx, [.resolvConfOpened]⟩
      else
        ⟨none, ctx, [.resolvConfOpened,
          .resolvConfWritten (resolvConfText p config o.order table ctx.resolutionMode)]⟩

/-- `write_resolv_conf`; the content found is kept the first time the file is written, as a C
string. -/
def writeResolvConf (p : Platform) (config : Config) (o : ResolvConfOutcome) (ctx : Context) :
    OperationResult :=
  match ctx.resolvConfBackup with
  | some _ => writeResolvConfFile p config o ctx
  | none =>
    match o.originalContent with
    | none => ⟨some "Failed to create backup of resolv.conf", ctx, []⟩
    | some content =>
      writeResolvConfFile p config o { ctx with resolvConfBackup := some (cString content) }

/-- Once there is a backup, `write_resolv_conf` writes the file. -/
lemma writeResolvConf_of_backup {p : Platform} {config : Config} {o : ResolvConfOutcome}
    {ctx : Context} {backup : String} (h : ctx.resolvConfBackup = some backup) :
    writeResolvConf p config o ctx = writeResolvConfFile p config o ctx := by
  unfold writeResolvConf
  rw [h]

/-- The text that `write_resolv_conf` writes. -/
lemma eq_resolvConfText_of_mem {p : Platform} {config : Config} {o : ResolvConfOutcome}
    {ctx : Context} {table : ServerTable} (htable : ctx.currentDomainToServers = some table)
    {text : String} (h : .resolvConfWritten text ∈ (writeResolvConf p config o ctx).effects) :
    text = resolvConfText p config o.order table ctx.resolutionMode := by
  have hfile : ∀ c : Context, c.currentDomainToServers = some table →
      c.resolutionMode = ctx.resolutionMode →
      .resolvConfWritten text ∈ (writeResolvConfFile p config o c).effects →
      text = resolvConfText p config o.order table ctx.resolutionMode := by
    intro c hc hmode hmem
    unfold writeResolvConfFile at hmem
    rw [hc] at hmem
    dsimp only at hmem
    rw [← hmode]
    split_ifs at hmem
    · simp at hmem
    · simp at hmem
    · simp at hmem
    · simpa using hmem
  cases hbackup : ctx.resolvConfBackup with
  | some backup => exact hfile ctx htable rfl (writeResolvConf_of_backup hbackup ▸ h)
  | none =>
    unfold writeResolvConf at h
    rw [hbackup] at h
    cases hcontent : o.originalContent with
    | none => simp [hcontent] at h
    | some content =>
      rw [hcontent] at h
      exact hfile { ctx with resolvConfBackup := some (cString content) } htable rfl h

end Dnsconfd
