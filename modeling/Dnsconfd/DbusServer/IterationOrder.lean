import Dnsconfd.DbusServer.CacheAgreement
import Dnsconfd.DbusServer.CaStability
import Dnsconfd.DbusServer.Changes
import Dnsconfd.UnboundManager.SearchDomains

/-!
# Orders of iteration

The daemon goes through its hash tables in seven places, in an order that GLib does not specify.
This file is about two runs that differ in these orders only.  They can part where the order decides
on the effective CA: `write_configuration` writes another file, or `update` asks for a reload in one
of them.  If the servers that the CA may be taken from agree on it (`OneCa`), nothing else depends on
the orders (`runs_in_any_order`): the contexts are the same up to the order in which the table
recorded for the cache is stored (`SameContext`), and the effects up to the order of zones, of search
domains and of commands (`SameEffects`).

The two runs go hand in hand: the actions of one iteration are compared first, one by one, then the
loop of `state_transition` (`SameMachine`), the handlers (`SameDaemon`) and whole runs.
-/

namespace Dnsconfd

open Library

variable {p : Platform} {config : Config}

/-! ## Inputs that differ in the orders only -/

/-- The orders of all iterations over hash tables during one call of `state_transition`: for the CA
and the zones of `unbound.conf`, for the search domains, and the four of `update`. -/
structure HashOrders where
  confCa : Enumeration ServerEntry
  zones : Enumeration ServerEntry
  searches : Enumeration ServerEntry
  used : Enumeration ServerEntry
  usedCa : Enumeration ServerEntry
  adds : Enumeration ServerEntry
  removes : Enumeration ServerEntry

/-- The same outcomes of system calls with other orders of iteration. -/
def Outcomes.inOrder (o : Outcomes) (h : HashOrders) : Outcomes :=
  { o with
    kickoff := { o.kickoff with caOrder := h.confCa, zonesOrder := h.zones }
    resolvConf := { o.resolvConf with order := h.searches }
    update := { o.update with
      tableOrder := h.used, caOrder := h.usedCa, addOrder := h.adds, removeOrder := h.removes } }

/-- The same input with other orders of iteration. -/
def Input.inOrder (i : Input) (h : HashOrders) : Input :=
  { i with outcomes := i.outcomes.inOrder h }

/-! ## The effective CA -/

/-- All servers that the CA may be taken from have the same one. -/
def AgreeOnCa (mode : Mode) (entries : List ServerEntry) : Prop :=
  ∀ x y, Chosen mode entries x → Chosen mode entries y →
    x.certificationAuthority = y.certificationAuthority

/-- The servers of an Update leave no choice of the CA, neither together with the static ones nor
among those that are used. -/
def OneCa (p : Platform) (config : Config) (D : List ServerUri) (m : Mode) : Prop :=
  ∀ table ∈ serverListToHashTable p (config.staticServers ++ D),
    AgreeOnCa m table.entries ∧ AgreeOnCa m (usedEntries m table)

/-- If all candidates have the same CA, there is no choice. -/
lemma agreeOnCa_of_candidates {mode : Mode} {entries : List ServerEntry} {ca : String}
    (h : ∀ entry ∈ entries, ∀ s ∈ caCandidates mode entry, s.certificationAuthority = some ca) :
    AgreeOnCa mode entries := by
  have hchosen : ∀ x, Chosen mode entries x → x.certificationAuthority = some ca := by
    rintro x ⟨entry, hentry, hx, -⟩
    exact h entry hentry x (List.argmin_mem hx)
  intro x y hx hy
  rw [hchosen x hx, hchosen y hy]

/-- Without a choice the same CA is found in every order, also in a table that is stored in another
order. -/
lemma AgreeOnCa.getEffectiveCa_eq {mode : Mode} {table table' : ServerTable}
    (h : AgreeOnCa mode table.entries) (hsame : table.Same table')
    (order order' : Enumeration ServerEntry) (readable : String → Bool) :
    getEffectiveCa order readable (some table) mode config =
      getEffectiveCa order' readable (some table') mode config := by
  have hchosen : ∀ x, Chosen mode table'.entries x ↔ Chosen mode table.entries x :=
    chosen_congr fun entry _ => hsame.mem_iff.symm
  have huris : effectiveCaFromUris order table mode = effectiveCaFromUris order' table' mode := by
    cases hca : effectiveCaFromUris order table mode with
    | none =>
      have hnil := effectiveCaFromUris_eq_none_iff.mp hca
      refine (effectiveCaFromUris_eq_none_iff.mpr fun entry hentry => ?_).symm
      exact hnil entry (hsame.mem_iff.mpr hentry)
    | some ca =>
      obtain ⟨x, hx, hxca⟩ := exists_order_effectiveCaFromUris_iff.mp ⟨order, hca⟩
      cases hca' : effectiveCaFromUris order' table' mode with
      | none =>
        obtain ⟨entry, hentry, hmin, -⟩ := hx
        have hnil := effectiveCaFromUris_eq_none_iff.mp hca' entry (hsame.mem_iff.mp hentry)
        rw [hnil] at hmin
        cases hmin
      | some ca' =>
        obtain ⟨y, hy, hyca⟩ := exists_order_effectiveCaFromUris_iff.mp ⟨order', hca'⟩
        rw [← hxca, ← hyca]
        exact h x y hx ((hchosen y).mp hy)
  unfold getEffectiveCa
  rw [Option.bind_some, Option.bind_some, huris]

/-! ## Effects up to the order -/

/-- The text of resolv.conf with the given search domains. -/
def resolvConfWith (p : Platform) (config : Config) (searches : List String) : String :=
  "#Generated by dnsconfd" ++ "\n" ++ (searchLine searches ++ resolvConfOptions p config)

/-- The same effect, up to the order of the lines of `unbound.conf` and of the search domains. -/
inductive SameEffect (p : Platform) (config : Config) : Effect → Effect → Prop where
  | same (e : Effect) : SameEffect p config e e
  | confWritten {lines lines' : List ConfLine} (hlines : lines.Perm lines')
      (hzones : loadZones lines = loadZones lines') :
      SameEffect p config (.confWritten lines) (.confWritten lines')
  | resolvConfWritten {searches searches' : List String} (h : searches.Perm searches') :
      SameEffect p config (.resolvConfWritten (resolvConfWith p config searches))
        (.resolvConfWritten (resolvConfWith p config searches'))

/-- The commands of the log. -/
def Effect.isCommand : Effect → Bool
  | .commandExecuted _ _ => true
  | _ => false

/-- The commands that have failed. -/
def Effect.isFailedCommand : Effect → Bool
  | .commandExecuted _ false => true
  | _ => false

lemma Effect.isFailedCommand_iff {e : Effect} :
    e.isFailedCommand = true ↔ ∃ command, e = .commandExecuted command false := by
  cases e with
  | commandExecuted command ok => cases ok <;> simp [isFailedCommand]
  | _ => simp [isFailedCommand]

/-- Everything but the commands. -/
def besidesCommands (log : List Effect) : List Effect :=
  log.filter fun e => !e.isCommand

/-- The commands that have succeeded. -/
def executed (log : List Effect) : List UnboundCommand :=
  log.filterMap fun
    | .commandExecuted command true => some command
    | _ => none

/-- Some command has failed. -/
def CommandFailed (log : List Effect) : Prop :=
  ∃ command, .commandExecuted command false ∈ log

instance (log : List Effect) : Decidable (CommandFailed log) :=
  decidable_of_iff (log.any Effect.isFailedCommand = true) <| by
    rw [List.any_eq_true]
    constructor
    · rintro ⟨e, he, hfailed⟩
      obtain ⟨command, rfl⟩ := Effect.isFailedCommand_iff.mp hfailed
      exact ⟨command, he⟩
    · rintro ⟨command, he⟩
      exact ⟨_, he, rfl⟩

/-- Two caches with the same zones, now and after a restart. -/
structure Cache.Alike (c c' : Cache) : Prop where
  zones : c.zones = c'.zones
  conf : loadZones c.conf = loadZones c'.conf

/-- Effects that differ in orders only.  The commands of an `update` are executed in any order, and
if one of them fails, others may or may not have been executed before. -/
structure SameEffects (p : Platform) (config : Config) (l l' : List Effect) : Prop where
  others : List.Forall₂ (SameEffect p config) (besidesCommands l) (besidesCommands l')
  failed : CommandFailed l ↔ CommandFailed l'
  commands : ¬ CommandFailed l → (executed l).Perm (executed l')
  cache : ¬ CommandFailed l → ∀ c c' : Cache, c.Alike c' → (c.after l).Alike (c'.after l')

/-- The same effect leaves them alike. -/
lemma Cache.Alike.step {c c' : Cache} (h : c.Alike c') (e : Effect) :
    (cacheStep c e).Alike (cacheStep c' e) := by
  cases e with
  | confWritten lines => exact ⟨h.zones, rfl⟩
  | startJobDone => exact ⟨h.conf, h.conf⟩
  | commandExecuted command ok =>
    cases ok with
    | true => exact ⟨congrArg command.apply h.zones, h.conf⟩
    | false => exact h
  | _ => exact h

lemma besidesCommands_append (l₁ l₂ : List Effect) :
    besidesCommands (l₁ ++ l₂) = besidesCommands l₁ ++ besidesCommands l₂ :=
  List.filter_append l₁ l₂

lemma commandFailed_append {l₁ l₂ : List Effect} :
    CommandFailed (l₁ ++ l₂) ↔ CommandFailed l₁ ∨ CommandFailed l₂ := by
  simp only [CommandFailed, List.mem_append, exists_or]

namespace SameEffects

lemma nil : SameEffects p config [] [] where
  others := .nil
  failed := Iff.rfl
  commands _ := List.Perm.refl _
  cache _ _ _ h := h

/-- Effects one after the other. -/
lemma append {l₁ l₂ l₁' l₂' : List Effect} (h₁ : SameEffects p config l₁ l₁')
    (h₂ : SameEffects p config l₂ l₂') : SameEffects p config (l₁ ++ l₂) (l₁' ++ l₂') where
  others := by
    rw [besidesCommands_append, besidesCommands_append]
    exact List.rel_append h₁.others h₂.others
  failed := by
    rw [commandFailed_append, commandFailed_append, h₁.failed, h₂.failed]
  commands hok := by
    rw [commandFailed_append, not_or] at hok
    simp only [executed, List.filterMap_append]
    exact (h₁.commands hok.1).append (h₂.commands hok.2)
  cache hok c c' hc := by
    rw [commandFailed_append, not_or] at hok
    rw [Cache.after_append, Cache.after_append]
    exact h₂.cache hok.2 _ _ (h₁.cache hok.1 c c' hc)

/-- One effect that is not a command. -/
lemma single {e e' : Effect} (h : SameEffect p config e e') (hcommand : e.isCommand = false) :
    SameEffects p config [e] [e'] := by
  cases h with
  | same =>
    have hbesides : besidesCommands [e] = [e] := by simp [besidesCommands, hcommand]
    refine ⟨?_, Iff.rfl, fun _ => List.Perm.refl _, fun _ c c' hc => hc.step e⟩
    rw [hbesides]
    exact .cons (.same e) .nil
  | confWritten hlines hzones =>
    refine ⟨.cons (.confWritten hlines hzones) .nil, ?_, fun _ => List.Perm.refl _, ?_⟩
    · simp [CommandFailed]
    · exact fun _ c c' hc => ⟨hc.zones, hzones⟩
  | resolvConfWritten hperm =>
    refine ⟨.cons (.resolvConfWritten hperm) .nil, ?_, fun _ => List.Perm.refl _, ?_⟩
    · simp [CommandFailed]
    · exact fun _ c c' hc => hc

/-- The same effects. -/
lemma refl {l : List Effect} (h : ∀ e ∈ l, e.isCommand = false) : SameEffects p config l l := by
  induction l with
  | nil => exact nil
  | cons e l ih =>
    exact append (single (.same e) (h e List.mem_cons_self))
      (ih fun e he => h e (List.mem_cons_of_mem _ he))

/-- Commands of which one has failed. -/
lemma of_failed {l l' : List Effect} (hl : besidesCommands l = []) (hl' : besidesCommands l' = [])
    (h : CommandFailed l) (h' : CommandFailed l') : SameEffects p config l l' where
  others := by
    rw [hl, hl']
    exact .nil
  failed := iff_of_true h h'
  commands hok := absurd h hok
  cache hok := absurd h hok

end SameEffects

/-! ## The commands of an update -/

lemma besidesCommands_executeCommands (commandOk : UnboundCommand → Bool)
    (commands : List UnboundCommand) :
    besidesCommands (executeCommands commandOk commands).2 = [] := by
  induction commands with
  | nil => rfl
  | cons command commands ih =>
    unfold executeCommands
    split_ifs
    · exact ih
    · rfl

lemma commandFailed_executeCommands {commandOk : UnboundCommand → Bool}
    {commands : List UnboundCommand} :
    CommandFailed (executeCommands commandOk commands).2 ↔
      (executeCommands commandOk commands).1 = false := by
  induction commands with
  | nil => simp [CommandFailed, executeCommands]
  | cons command commands ih =>
    unfold executeCommands
    split_ifs
    · simpa [CommandFailed] using ih
    · simp [CommandFailed]

lemma executed_map (commands : List UnboundCommand) :
    executed (commands.map (.commandExecuted · true)) = commands := by
  rw [executed, List.filterMap_map]
  exact List.filterMap_some

/-- The recorded tables have the same entries, if there are any. -/
abbrev SameRecord (old old' : Option ServerTable) : Prop :=
  Option.Rel Table.Same old old'

lemma SameRecord.lookup_eq {old old' : Option ServerTable} (h : SameRecord old old')
    (domain : String) :
    (old.bind fun table => table.lookup domain) = old'.bind fun table => table.lookup domain := by
  cases h with
  | none => rfl
  | some hsame => exact hsame.lookup_eq domain

lemma addCommands_perm {old old' : Option ServerTable} {new new' : ServerTable}
    (hold : SameRecord old old') (hnew : new.Same new') (order order' : Enumeration ServerEntry) :
    (addCommands p order old new).Perm (addCommands p order' old' new') := by
  have hbody : ∀ domain servers,
      unchangedDomain old domain servers = unchangedDomain old' domain servers := by
    intro domain servers
    rw [unchangedDomain, hold.lookup_eq]
    rfl
  simp only [addCommands, hbody]
  exact (order.visit_perm_visit order' hnew).flatMap_right _

lemma removeCommands_perm {old old' : Option ServerTable} {new new' : ServerTable}
    (hold : SameRecord old old') (hnew : new.Same new') (order order' : Enumeration ServerEntry) :
    (removeCommands order old new).Perm (removeCommands order' old' new') := by
  cases hold with
  | none => exact List.Perm.refl _
  | some hsame =>
    simp only [removeCommands, hnew.lookup_eq]
    exact (order.visit_perm_visit order' hsame).flatMap_right _

/-- What `update` leaves in two orders: the same table after the same commands, all of them
executed with success; an error in both; or a reload asked for in both. -/
inductive SameUpdate (p : Platform) (config : Config) :
    UpdateResult × List Effect → UpdateResult × List Effect → Prop where
  | done {new new' : ServerTable} {commands commands' : List UnboundCommand}
      (hnew : new.Same new') (hcommands : commands.Perm commands') :
      SameUpdate p config (.done new, commands.map (.commandExecuted · true))
        (.done new', commands'.map (.commandExecuted · true))
  | failed {errorString : Option String} {l l' : List Effect} (h : SameEffects p config l l') :
      SameUpdate p config (.error errorString, l) (.error errorString, l')
  | reload : SameUpdate p config (.reload, []) (.reload, [])

lemma sameUpdate_applyUpdate {old old' : Option ServerTable} {new new' : ServerTable}
    (hold : SameRecord old old') (hnew : new.Same new') (o : Outcomes) (h : HashOrders) :
    SameUpdate p config (applyUpdate p o.update old new)
      (applyUpdate p (o.inOrder h).update old' new') := by
  have hadds := addCommands_perm (p := p) hold hnew o.update.addOrder h.adds
  have hremoves := removeCommands_perm hold hnew o.update.removeOrder h.removes
  have haddsOk : (executeCommands o.update.commandOk (addCommands p h.adds old' new')).1 =
      (executeCommands o.update.commandOk (addCommands p o.update.addOrder old new)).1 := by
    rw [executeCommands_fst, executeCommands_fst, hadds.all_eq]
  have hremovesOk : (executeCommands o.update.commandOk (removeCommands h.removes old' new')).1 =
      (executeCommands o.update.commandOk (removeCommands o.update.removeOrder old new)).1 := by
    rw [executeCommands_fst, executeCommands_fst, hremoves.all_eq]
  simp only [applyUpdate, Outcomes.inOrder, haddsOk, hremovesOk]
  cases hok : (executeCommands o.update.commandOk (addCommands p o.update.addOrder old new)).1 with
  | false =>
    refine .failed (.of_failed ?_ ?_ ?_ ?_)
    · exact besidesCommands_executeCommands _ _
    · exact besidesCommands_executeCommands _ _
    · exact commandFailed_executeCommands.mpr hok
    · exact commandFailed_executeCommands.mpr (haddsOk.trans hok)
  | true =>
    cases hok' : (executeCommands o.update.commandOk
      (removeCommands o.update.removeOrder old new)).1 with
    | false =>
      refine .failed (.of_failed ?_ ?_ ?_ ?_)
      · simp [besidesCommands_append, besidesCommands_executeCommands]
      · simp [besidesCommands_append, besidesCommands_executeCommands]
      · exact commandFailed_append.mpr (Or.inr (commandFailed_executeCommands.mpr hok'))
      · refine commandFailed_append.mpr (Or.inr (commandFailed_executeCommands.mpr ?_))
        exact hremovesOk.trans hok'
    | true =>
      simp only [Bool.not_true, Bool.false_eq_true, if_false]
      rw [executeCommands_ok hok, executeCommands_ok hok', executeCommands_ok (haddsOk.trans hok),
        executeCommands_ok (hremovesOk.trans hok'), ← List.map_append, ← List.map_append]
      exact .done hnew (hadds.append hremoves)

/-- The context with another table recorded for the cache. -/
def Context.recording (ctx : Context) (u : Option ServerTable) : Context :=
  { ctx with currentUnboundDomainToServers := u }

/-- `update` in two orders, with two orders of the recorded table. -/
lemma sameUpdate_update {ctx : Context} {u : Option ServerTable}
    (hu : SameRecord ctx.currentUnboundDomainToServers u)
    (hca : ∀ table ∈ ctx.currentDomainToServers,
      AgreeOnCa ctx.resolutionMode (usedEntries ctx.resolutionMode table))
    (o : Outcomes) (h : HashOrders) :
    SameUpdate p config (update p config o.update ctx)
      (update p config (o.inOrder h).update (ctx.recording u)) := by
  simp only [update, Context.recording]
  cases htable : ctx.currentDomainToServers with
  | none => exact .failed (.refl (by simp [Effect.isCommand]))
  | some table =>
    have hagree := hca table htable
    have hnew : (usedServersTable o.update.tableOrder table ctx.resolutionMode).Same
        (usedServersTable h.used table ctx.resolutionMode) :=
      Table.same_of_lookup fun domain => by
        rw [usedServersTable, usedServersTable, Table.lookup_collect_visit,
          Table.lookup_collect_visit]
    have hagree' : AgreeOnCa ctx.resolutionMode
        (usedServersTable o.update.tableOrder table ctx.resolutionMode).entries :=
      fun x y hx hy =>
        hagree x y ((chosen_usedServersTable_iff x).mp hx) ((chosen_usedServersTable_iff y).mp hy)
    have hsameCa : getEffectiveCa o.update.caOrder o.update.readable
        (some (usedServersTable o.update.tableOrder table ctx.resolutionMode)) ctx.resolutionMode
        config = getEffectiveCa h.usedCa o.update.readable
          (some (usedServersTable h.used table ctx.resolutionMode)) ctx.resolutionMode config :=
      hagree'.getEffectiveCa_eq hnew _ _ _
    simp only [Outcomes.inOrder, ← hsameCa]
    split
    · exact .failed .nil
    · split
      · exact .failed (.refl (by simp [Effect.isCommand]))
      · split_ifs
        · exact .reload
        · exact sameUpdate_applyUpdate hu hnew o h

/-! ## Actions -/

/-- The contexts are the same, up to the order in which the recorded table is stored. -/
def SameContext (ctx ctx' : Context) : Prop :=
  ∃ u, ctx' = ctx.recording u ∧ SameRecord ctx.currentUnboundDomainToServers u

/-- The same result of an action. -/
structure SameResult (p : Platform) (config : Config) (r r' : ActionResult) : Prop where
  ctx : SameContext r.ctx r'.ctx
  effects : SameEffects p config r.effects r'.effects
  event : r.event = r'.event

lemma SameContext.currentState_eq {ctx ctx' : Context} (h : SameContext ctx ctx') :
    ctx'.currentState = ctx.currentState := by
  obtain ⟨u, rfl, -⟩ := h
  rfl

lemma SameContext.isNamed_eq {ctx ctx' : Context} (h : SameContext ctx ctx') (domain : String)
    (wanted : Option (List ServerUri)) :
    isNamed ctx.currentUnboundDomainToServers domain wanted =
      isNamed ctx'.currentUnboundDomainToServers domain wanted := by
  obtain ⟨u, rfl, hu⟩ := h
  have hlookup := hu.lookup_eq domain
  cases wanted with
  | none => exact congrArg Option.isSome hlookup
  | some servers =>
    rw [isNamed, unchangedDomain, hlookup]
    rfl

/-- `update_dns_manager`. -/
lemma updateDnsManager_alike {ctx ctx' : Context} (hctx : SameContext ctx ctx')
    (hca : ∀ table ∈ ctx.currentDomainToServers,
      AgreeOnCa ctx.resolutionMode (usedEntries ctx.resolutionMode table))
    (o : Outcomes) (h : HashOrders) :
    SameResult p config (updateDnsManager p config o.update ctx)
      (updateDnsManager p config (o.inOrder h).update ctx') := by
  have hnamed := hctx.isNamed_eq
  obtain ⟨u, rfl, hu⟩ := hctx
  have hsame : SameUpdate p config (update p config o.update ctx)
      (update p config (o.inOrder h).update (ctx.recording u)) := sameUpdate_update hu hca o h
  unfold updateDnsManager
  generalize hr : update p config o.update ctx = r at hsame ⊢
  generalize hr' : update p config (o.inOrder h).update (ctx.recording u) = r' at hsame ⊢
  cases hsame with
  | @done new new' commands commands' hnew hcommands =>
    refine ⟨⟨some new', rfl, .some hnew⟩, ?_, rfl⟩
    have hcache : ∀ c c' : Cache, c.Alike c' →
        (c.after (commands.map (.commandExecuted · true))).Alike
          (c'.after (commands'.map (.commandExecuted · true))) := by
      intro c c' hc
      obtain ⟨-, hconf, hzones⟩ := update_done_cache hr c
      obtain ⟨-, hconf', hzones'⟩ := update_done_cache hr' c'
      refine ⟨funext fun domain => ?_, by rw [hconf, hconf', hc.conf]⟩
      rw [hzones, hzones', hnamed, hc.zones]
      rfl
    have hok : ∀ commands : List UnboundCommand,
        ¬ CommandFailed (commands.map (.commandExecuted · true)) := by
      simp [CommandFailed]
    have hbesides : ∀ commands : List UnboundCommand,
        besidesCommands (commands.map (.commandExecuted · true)) = [] := by
      simp [besidesCommands, Effect.isCommand]
    refine .append ⟨?_, ?_, fun _ => ?_, fun _ => hcache⟩ (.refl (by simp [Effect.isCommand]))
    · rw [hbesides, hbesides]
      exact .nil
    · exact iff_of_false (hok _) (hok _)
    · rw [executed_map, executed_map]
      exact hcommands
  | failed heffects => exact ⟨⟨u, rfl, hu⟩, heffects, rfl⟩
  | reload => exact ⟨⟨u, rfl, hu⟩, .nil, rfl⟩

/-- The same result with another table recorded for the cache. -/
def ActionResult.recording (r : ActionResult) (u : Option ServerTable) : ActionResult :=
  { r with ctx := r.ctx.recording u }

section Recording

variable (ctx : Context) (u : Option ServerTable)

lemma fsmStartingEventKickoff_recording (o : KickoffOutcome) :
    fsmStartingEventKickoff p config o (ctx.recording u) =
      (fsmStartingEventKickoff p config o ctx).recording u := by
  have hcontext : updateContext p config (ctx.recording u) =
      (updateContext p config ctx).recording u := rfl
  have hwrite : ∀ ctx : Context, writeConfiguration p config o (ctx.recording u) =
      ⟨(writeConfiguration p config o ctx).error, (writeConfiguration p config o ctx).ctx.recording u,
        (writeConfiguration p config o ctx).effects⟩ := by
    intro ctx
    have htable : (ctx.recording u).currentDomainToServers = ctx.currentDomainToServers := rfl
    have hmode : (ctx.recording u).resolutionMode = ctx.resolutionMode := rfl
    unfold writeConfiguration
    rw [htable, hmode]
    cases getEffectiveCa o.caOrder o.readable ctx.currentDomainToServers ctx.resolutionMode config <;>
      split_ifs <;> rfl
  unfold fsmStartingEventKickoff
  dsimp only
  rw [hcontext, hwrite]
  split_ifs <;> rfl

lemma setServiceStatus_recording (expectedStatus command : String) (o : ServiceOutcome) :
    setServiceStatus expectedStatus command o (ctx.recording u) =
      (setServiceStatus expectedStatus command o ctx).recording u := by
  unfold setServiceStatus
  split_ifs <;> rfl

lemma setResolvConf_recording (o : ResolvConfOutcome) :
    setResolvConf p config o (ctx.recording u) = (setResolvConf p config o ctx).recording u := by
  have hfile : ∀ ctx : Context, writeResolvConfFile p config o (ctx.recording u) =
      ⟨(writeResolvConfFile p config o ctx).error, (writeResolvConfFile p config o ctx).ctx.recording u,
        (writeResolvConfFile p config o ctx).effects⟩ := by
    intro ctx
    have htable : (ctx.recording u).currentDomainToServers = ctx.currentDomainToServers := rfl
    unfold writeResolvConfFile
    rw [htable]
    cases ctx.currentDomainToServers <;> split_ifs <;> rfl
  have hbackup : (ctx.recording u).resolvConfBackup = ctx.resolvConfBackup := rfl
  unfold setResolvConf writeResolvConf
  rw [hbackup]
  cases ctx.resolvConfBackup with
  | some backup =>
    dsimp only
    rw [hfile]
    rfl
  | none =>
    cases o.originalContent with
    | none => rfl
    | some content =>
      have hrest := hfile { ctx with resolvConfBackup := some (cString content) }
      dsimp only [Context.recording] at hrest ⊢
      rw [hrest]
      rfl

lemma revertResolvConf_recording (o : RevertOutcome) :
    revertResolvConf o (ctx.recording u) = (revertResolvConf o ctx).recording u := by
  have hbackup : (ctx.recording u).resolvConfBackup = ctx.resolvConfBackup := rfl
  unfold revertResolvConf
  rw [hbackup]
  cases ctx.resolvConfBackup <;> split_ifs <;> rfl

lemma setExitCode_recording (code : ExitCode) :
    setExitCode code (ctx.recording u) = (setExitCode code ctx).recording u := by
  have hcode : (ctx.recording u).exitCode = ctx.exitCode := rfl
  unfold setExitCode
  rw [hcode]
  split_ifs <;> rfl

/-- Only `update` looks at the table recorded for the cache. -/
lemma transitionAction_recording (o : Outcomes) {event : FsmEvent}
    (h : isApply ctx.currentState event = false) :
    transitionAction p config o (ctx.recording u) event =
      (transitionAction p config o ctx event).map fun r => r.recording u := by
  have hstate : (ctx.recording u).currentState = ctx.currentState := rfl
  have htaken : updateContext p config (setDynamicServers (ctx.recording u)) =
      (updateContext p config (setDynamicServers ctx)).recording u := rfl
  have henter : ∀ (r : ActionResult) (state : FsmState),
      (r.recording u).enter state = (r.enter state).recording u := fun _ _ => rfl
  unfold transitionAction
  rw [hstate]
  split <;>
    simp_all only [isApply, fsmStartingEventKickoff_recording, setResolvConf_recording,
      revertResolvConf_recording, setExitCode_recording, fsmConfiguringDnsManagerEventSuccess,
      submitStopJob, setServiceStatus_recording]
  all_goals first | rfl | cases h

end Recording

/-- The same result in the same context. -/
structure SameBesides (p : Platform) (config : Config) (r r' : ActionResult) : Prop where
  ctx : r.ctx = r'.ctx
  effects : SameEffects p config r.effects r'.effects
  event : r.event = r'.event

namespace SameBesides

lemma refl {r : ActionResult} (h : ∀ e ∈ r.effects, e.isCommand = false) :
    SameBesides p config r r :=
  ⟨rfl, .refl h, rfl⟩

lemma enter {r r' : ActionResult} (h : SameBesides p config r r') (state : FsmState) :
    SameBesides p config (r.enter state) (r'.enter state) :=
  ⟨congrArg (fun ctx : Context => { ctx with currentState := state }) h.ctx, h.effects, h.event⟩

/-- An effect before the action. -/
lemma cons {r r' : ActionResult} (h : SameBesides p config r r') {e : Effect}
    (he : e.isCommand = false) :
    SameBesides p config ⟨r.ctx, e :: r.effects, r.event⟩ ⟨r'.ctx, e :: r'.effects, r'.event⟩ :=
  ⟨h.ctx, (SameEffects.single (.same e) he).append h.effects, h.event⟩

end SameBesides

lemma confLines_perm (o : Outcomes) (h : HashOrders) (ctx : Context) (effectiveCa : String) :
    (confLines p config o.kickoff ctx effectiveCa).Perm
      (confLines p config (o.inOrder h).kickoff ctx effectiveCa) := by
  have hzones : (confZoneLines p o.kickoff.zonesOrder ctx.currentDomainToServers
      ctx.resolutionMode).Perm
        (confZoneLines p h.zones ctx.currentDomainToServers ctx.resolutionMode) := by
    cases ctx.currentDomainToServers with
    | none => exact List.Perm.refl _
    | some table =>
      simp only [confZoneLines, generateForwardZones, any_rootPresent]
      have hvisited := o.kickoff.zonesOrder.visit_perm_visit h.zones (List.Perm.refl table.entries)
      exact (hvisited.flatMap_right _).append_right _
  exact ((List.Perm.refl _).append hzones).append_right _

/-- The same result of an operation in the same context. -/
structure SameOperation (p : Platform) (config : Config) (r r' : OperationResult) : Prop where
  error : r.error = r'.error
  ctx : r.ctx = r'.ctx
  effects : SameEffects p config r.effects r'.effects

lemma SameOperation.refl {r : OperationResult} (h : ∀ e ∈ r.effects, e.isCommand = false) :
    SameOperation p config r r :=
  ⟨rfl, rfl, .refl h⟩

/-- `write_configuration`. -/
lemma writeConfiguration_inOrder {ctx : Context}
    (hca : ∀ table ∈ ctx.currentDomainToServers, AgreeOnCa ctx.resolutionMode table.entries)
    (o : Outcomes) (h : HashOrders) :
    SameOperation p config (writeConfiguration p config o.kickoff ctx)
      (writeConfiguration p config (o.inOrder h).kickoff ctx) := by
  have hsameCa : getEffectiveCa h.confCa o.kickoff.readable ctx.currentDomainToServers
      ctx.resolutionMode config = getEffectiveCa o.kickoff.caOrder o.kickoff.readable
        ctx.currentDomainToServers ctx.resolutionMode config := by
    cases htable : ctx.currentDomainToServers with
    | none => rfl
    | some table => exact (hca table htable).getEffectiveCa_eq (List.Perm.refl _) _ _ _
  have hnothing : ∀ (error : Option String) (ctx : Context),
      SameOperation p config ⟨error, ctx, []⟩ ⟨error, ctx, []⟩ := fun _ _ => .refl (by simp)
  have hwritten : ∀ ca, SameEffects p config [.confWritten (confLines p config o.kickoff ctx ca)]
      [.confWritten (confLines p config (o.inOrder h).kickoff ctx ca)] := by
    intro ca
    refine .single (.confWritten (confLines_perm o h ctx ca) (funext fun domain => ?_)) rfl
    rw [loadZones_confLines, loadZones_confLines]
  simp only [Outcomes.inOrder] at hwritten ⊢
  unfold writeConfiguration
  dsimp only
  rw [hsameCa]
  cases getEffectiveCa o.kickoff.caOrder o.kickoff.readable ctx.currentDomainToServers
    ctx.resolutionMode config with
  | none => split_ifs <;> exact hnothing _ _
  | some ca => split_ifs <;> first | exact hnothing _ _ | exact ⟨rfl, rfl, hwritten ca⟩

/-- `fsm_starting_event_kickoff`. -/
lemma fsmStartingEventKickoff_inOrder {ctx : Context}
    (hca : ∀ table ∈ (updateContext p config ctx).currentDomainToServers,
      AgreeOnCa ctx.resolutionMode table.entries) (o : Outcomes) (h : HashOrders) :
    SameBesides p config (fsmStartingEventKickoff p config o.kickoff ctx)
      (fsmStartingEventKickoff p config (o.inOrder h).kickoff ctx) := by
  have hwrite : SameOperation p config
      (writeConfiguration p config o.kickoff (updateContext p config ctx))
      (writeConfiguration p config (o.inOrder h).kickoff (updateContext p config ctx)) :=
    writeConfiguration_inOrder hca o h
  have hmonitor : (o.inOrder h).kickoff.monitorCreated = o.kickoff.monitorCreated := rfl
  unfold fsmStartingEventKickoff
  dsimp only
  rw [hmonitor]
  cases o.kickoff.monitorCreated with
  | false => exact .refl (by simp)
  | true =>
    simp only [Bool.not_true, Bool.false_eq_true, if_false]
    refine ⟨hwrite.ctx, ?_, by rw [hwrite.error]⟩
    exact (SameEffects.single (.same .monitorCreated) rfl).append hwrite.effects

lemma searchesOf_perm (order order' : Enumeration ServerEntry) (table : ServerTable)
    (mode : Mode) : (searchesOf order table mode).Perm (searchesOf order' table mode) := by
  have hnodup : ∀ order, (searchesOf order table mode).Nodup := by
    intro order
    rw [searchesOf_eq]
    exact nodup_eraseDups _
  refine (List.perm_ext_iff_of_nodup (hnodup order) (hnodup order')).mpr fun search => ?_
  rw [mem_searchesOf_iff_lookup, mem_searchesOf_iff_lookup]

lemma writeResolvConfFile_inOrder (ctx : Context) (o : Outcomes) (h : HashOrders) :
    SameOperation p config (writeResolvConfFile p config o.resolvConf ctx)
      (writeResolvConfFile p config (o.inOrder h).resolvConf ctx) := by
  have hopens : (o.inOrder h).resolvConf.opens = o.resolvConf.opens := rfl
  have hclean : (o.inOrder h).resolvConf.clean = o.resolvConf.clean := rfl
  have hcloses : (o.inOrder h).resolvConf.closes = o.resolvConf.closes := rfl
  unfold writeResolvConfFile
  rw [hopens, hclean, hcloses]
  cases ctx.currentDomainToServers with
  | none => split_ifs <;> exact .refl (by simp [Effect.isCommand])
  | some table =>
    dsimp only
    split_ifs
    · exact .refl (by simp)
    · exact .refl (by simp [Effect.isCommand])
    · exact .refl (by simp [Effect.isCommand])
    · refine ⟨rfl, rfl, ?_⟩
      rw [resolvConfText_eq, resolvConfText_eq]
      refine (SameEffects.single (.same .resolvConfOpened) rfl).append ?_
      exact .single (.resolvConfWritten (searchesOf_perm _ _ _ _)) rfl

/-- `set_resolv_conf`. -/
lemma setResolvConf_inOrder (ctx : Context) (o : Outcomes) (h : HashOrders) :
    SameBesides p config (setResolvConf p config o.resolvConf ctx)
      (setResolvConf p config (o.inOrder h).resolvConf ctx) := by
  have hwrite : SameOperation p config (writeResolvConf p config o.resolvConf ctx)
      (writeResolvConf p config (o.inOrder h).resolvConf ctx) := by
    have hcontent : (o.inOrder h).resolvConf.originalContent = o.resolvConf.originalContent := rfl
    unfold writeResolvConf
    rw [hcontent]
    cases ctx.resolvConfBackup with
    | some backup => exact writeResolvConfFile_inOrder ctx o h
    | none =>
      cases o.resolvConf.originalContent with
      | none => exact .refl (by simp)
      | some content => exact writeResolvConfFile_inOrder _ o h
  exact ⟨hwrite.ctx, hwrite.effects, by rw [setResolvConf, setResolvConf, hwrite.error]⟩

/-- The states and events whose actions iterate over tables. -/
def actsInOrder (state : FsmState) (event : FsmEvent) : Bool :=
  isKickoff state event || isWrite state event || isApply state event

/-- All other actions do not depend on the orders. -/
lemma transitionAction_inOrder_eq {ctx : Context} {event : FsmEvent}
    (hs : actsInOrder ctx.currentState event = false) {o : Outcomes} {h : HashOrders} :
    transitionAction p config (o.inOrder h) ctx event = transitionAction p config o ctx event := by
  unfold transitionAction
  split <;> first | rfl | simp_all [actsInOrder, isKickoff, isWrite, isApply]

/-- All actions but that of `update` in two orders. -/
lemma transitionAction_inOrder {D : List ServerUri} {m : Mode} {ctx : Context} {event : FsmEvent}
    (happ : AppliedIn p config D m ctx event) (hca : OneCa p config D m)
    (hevent : isApply ctx.currentState event = false) (o : Outcomes) (h : HashOrders) :
    Option.Rel (SameBesides p config) (transitionAction p config o ctx event)
      (transitionAction p config (o.inOrder h) ctx event) := by
  have hkickoff : isKickoff ctx.currentState event = true →
      SameBesides p config (fsmStartingEventKickoff p config o.kickoff ctx)
        (fsmStartingEventKickoff p config (o.inOrder h).kickoff ctx) := by
    intro hs
    obtain ⟨hlive, hne⟩ := isLive_of_isKickoff hs
    have hD := happ.dynamic hlive
    rw [if_neg hne] at hD
    refine fsmStartingEventKickoff_inOrder (fun table htable => ?_) o h
    rw [happ.mode hlive]
    refine (hca table ?_).1
    rw [← hD]
    exact htable
  cases hs : actsInOrder ctx.currentState event with
  | false =>
    rw [transitionAction_inOrder_eq hs]
    cases haction : transitionAction p config o ctx event with
    | none => exact .none
    | some r =>
      refine .some (.refl fun e he => ?_)
      have hof := (edge_of_transitionAction haction).isOf he
      cases e with
      | commandExecuted command ok => rw [Effect.isOf, hevent] at hof; cases hof
      | _ => rfl
  | true =>
    unfold transitionAction
    cases hstate : ctx.currentState <;> cases event <;> rw [hstate] at hs hkickoff hevent <;>
      first | exact absurd hs (by decide) | dsimp only
    case starting.kickoff | waitingForStartJob.reload => exact .some ((hkickoff rfl).enter _)
    case updatingDnsManager.reload | running.reload =>
      exact .some (((hkickoff rfl).enter _).cons rfl)
    case waitingForStartJob.jobSuccess =>
      exact .some (((setResolvConf_inOrder ctx o h).enter _).cons rfl)
    case running.update => exact .some ((setResolvConf_inOrder _ o h).enter _)
    case settingResolvConf.success => cases hevent

/-- The table that is in use when the cache is updated is that of the last Update. -/
lemma AppliedIn.agreeOnCa {D : List ServerUri} {m : Mode} {ctx : Context}
    (happ : AppliedIn p config D m ctx .success) (hca : OneCa p config D m)
    (hstate : ctx.currentState = .settingResolvConf) :
    ∀ table ∈ ctx.currentDomainToServers,
      AgreeOnCa ctx.resolutionMode (usedEntries ctx.resolutionMode table) := by
  have hlive : ctx.currentState.isLive = true := by rw [hstate]; rfl
  have hD : ctx.currentDynamicServers = D := happ.dynamic hlive
  have htable := happ.table (by rw [hstate]; rfl)
  intro table hmem
  rw [htable, hD] at hmem
  rw [happ.mode hlive]
  exact (hca table hmem).2

lemma SameResult.enter {r r' : ActionResult} (h : SameResult p config r r') (state : FsmState) :
    SameResult p config (r.enter state) (r'.enter state) := by
  obtain ⟨u, hctx, hu⟩ := h.ctx
  refine ⟨⟨u, ?_, hu⟩, h.effects, h.event⟩
  change ({ r'.ctx with currentState := state } : Context) = _
  rw [hctx]
  rfl

/-- Only `update` changes the table recorded for the cache. -/
lemma recorded_of_transitionAction {o : Outcomes} {ctx : Context} {event : FsmEvent}
    {r : ActionResult} (hevent : isApply ctx.currentState event = false)
    (hr : transitionAction p config o ctx event = some r) :
    r.ctx.currentUnboundDomainToServers = ctx.currentUnboundDomainToServers := by
  have hsame : transitionAction p config o ctx event =
      (transitionAction p config o ctx event).map
        fun r => r.recording ctx.currentUnboundDomainToServers :=
    transitionAction_recording ctx ctx.currentUnboundDomainToServers o hevent
  rw [hr] at hsame
  exact congrArg (fun r : ActionResult => r.ctx.currentUnboundDomainToServers)
    (Option.some.inj hsame)

/-- The actions of `state_transition` in two orders. -/
lemma transitionAction_alike {D : List ServerUri} {m : Mode} {ctx ctx' : Context}
    {event : FsmEvent} (hctx : SameContext ctx ctx') (happ : AppliedIn p config D m ctx event)
    (hca : OneCa p config D m) (o : Outcomes) (h : HashOrders) :
    Option.Rel (SameResult p config) (transitionAction p config o ctx event)
      (transitionAction p config (o.inOrder h) ctx' event) := by
  cases hevent : isApply ctx.currentState event with
  | true =>
    have hstate : ctx.currentState = .settingResolvConf ∧ event = .success := by
      revert hevent
      cases ctx.currentState <;> cases event <;> simp [isApply]
    obtain ⟨hstate, rfl⟩ := hstate
    have hstate' : ctx'.currentState = .settingResolvConf := hctx.currentState_eq.trans hstate
    have hupdate : SameResult p config _ _ :=
      updateDnsManager_alike hctx (happ.agreeOnCa hca hstate) o h
    simp only [transitionAction, hstate, hstate']
    exact .some (hupdate.enter _)
  | false =>
    have hinOrder := transitionAction_inOrder happ hca hevent o h
    obtain ⟨u, rfl, hu⟩ := hctx
    rw [transitionAction_recording ctx u (o.inOrder h) hevent]
    rw [← @Option.map_id' _ (transitionAction p config o ctx event)]
    refine optionRel_map hinOrder fun r r' hr hsame => ⟨⟨u, ?_, ?_⟩, hsame.effects, hsame.event⟩
    · exact congrArg (fun ctx : Context => ctx.recording u) hsame.ctx.symm
    · rw [recorded_of_transitionAction hevent hr]
      exact hu

/-! ## Runs -/

/-- The machines of the two runs between two iterations; the servers and the mode of the last Update
are `D` and `m`. -/
structure SameMachine (p : Platform) (config : Config) (D : List ServerUri) (m : Mode)
    (a b : Machine) : Prop where
  ctx : SameContext a.ctx b.ctx
  event : a.event = b.event
  log : SameEffects p config a.log b.log
  applied : AppliedIn p config D m a.ctx a.event

section Iterations

variable {D : List ServerUri} {m : Mode} {a b : Machine}

/-- One iteration. -/
lemma SameMachine.transition (hab : SameMachine p config D m a b) (hca : OneCa p config D m)
    (o : Outcomes) (h : HashOrders) :
    Option.Rel (SameMachine p config D m) (transition p config o a)
      (transition p config (o.inOrder h) b) := by
  have haction := transitionAction_alike hab.ctx hab.applied hca o h
  unfold Dnsconfd.transition
  rw [← hab.event, hab.ctx.currentState_eq]
  refine optionRel_map haction fun r r' hr hsame =>
    ⟨hsame.ctx, hsame.event, hab.log.append ?_, hab.applied.edge (edge_of_transitionAction hr)⟩
  exact (SameEffects.single (.same _) rfl).append hsame.effects

/-- `state_transition`. -/
lemma SameMachine.stateTransition (hab : SameMachine p config D m a b) (hca : OneCa p config D m)
    (o : Outcomes) (h : HashOrders) :
    let r := stateTransition p config o a.ctx a.event a.log
    let r' := stateTransition p config (o.inOrder h) b.ctx b.event b.log
    r.accepted = r'.accepted ∧ SameContext r.state.ctx r'.state.ctx ∧
      SameEffects p config r.state.log r'.state.log := by
  have hagain : ∀ a b, SameMachine p config D m a b → a.hasEvent = b.hasEvent := by
    intro a b hab
    rw [Machine.hasEvent, Machine.hasEvent, hab.event]
  have hloop := doWhile_rel hagain (fun a b hab => hab.transition hca o h) maxIterations a b hab
  have hleft := stateTransitionLoop_eq p config o a.ctx a.event a.log
  have hright := stateTransitionLoop_eq p config (o.inOrder h) b.ctx b.event b.log
  unfold stateTransitionLoop at hleft hright
  rw [hleft, hright] at hloop
  cases hloop with
  | some hend => exact ⟨hend.1, hend.2.ctx, hend.2.log⟩

end Iterations

/-- The daemons of the two runs. -/
structure SameDaemon (p : Platform) (config : Config) (d d' : Daemon) : Prop where
  ctx : SameContext d.ctx d'.ctx
  log : SameEffects p config d.log d'.log

section Handlers

variable {d d' : Daemon}

lemma SameContext.setExitCode {ctx ctx' : Context} (h : SameContext ctx ctx') (code : ExitCode) :
    SameContext { ctx with exitCode := code } { ctx' with exitCode := code } := by
  obtain ⟨u, rfl, hu⟩ := h
  exact ⟨u, rfl, hu⟩

/-- A further effect that is not a command. -/
lemma SameEffects.concat {l l' : List Effect} (h : SameEffects p config l l') {e : Effect}
    (he : e.isCommand = false) : SameEffects p config (l ++ [e]) (l' ++ [e]) :=
  h.append (.single (.same e) he)

/-- Handling of an event whose refusal is fatal. -/
lemma SameDaemon.dispatch {D : List ServerUri} {m : Mode} {event : FsmEvent}
    (hd : SameDaemon p config d d') (happ : AppliedIn p config D m d.ctx event)
    (hca : OneCa p config D m) (o : Outcomes) (h : HashOrders) :
    SameDaemon p config (dispatch p config o event d) (dispatch p config (o.inOrder h) event d') := by
  obtain ⟨haccepted, hctx, hlog⟩ := SameMachine.stateTransition
    (a := ⟨d.ctx, event, d.log⟩) (b := ⟨d'.ctx, event, d'.log⟩) ⟨hd.ctx, rfl, hd.log, happ⟩ hca o h
  unfold Dnsconfd.dispatch
  dsimp only at haccepted ⊢
  rw [← haccepted]
  split_ifs
  · exact ⟨hctx, hlog⟩
  · exact ⟨hctx.setExitCode _, hlog.concat rfl⟩

/-- The reply to an Update call. -/
lemma SameDaemon.accept (hd : SameDaemon p config d d') : SameDaemon p config d.accept d'.accept := by
  have hserial : d'.ctx.requestedConfigurationSerial = d.ctx.requestedConfigurationSerial := by
    obtain ⟨u, hctx, -⟩ := hd.ctx
    rw [hctx]
    rfl
  unfold Daemon.accept
  rw [hserial]
  exact ⟨hd.ctx, hd.log.concat rfl⟩

/-- The Update in an input. -/
def Input.update (p : Platform) (i : Input) : Option (List ServerUri × Mode) :=
  match i.event with
  | .updateCall servers mode => (decodeUpdateCall p i.isWireless servers mode).toOption
  | _ => none

/-- The last Update after a step. -/
lemma lastUpdate_step (d : Daemon) (i : Input) :
    lastUpdate (d.step p config i).log = (i.update p).getD (lastUpdate d.log) := by
  obtain ⟨event, o, isWireless⟩ := i
  cases event with
  | updateCall servers mode =>
    cases hdecode : decodeUpdateCall p isWireless servers mode with
    | error error =>
      simp only [Input.update, hdecode]
      exact lastUpdate_of_not_decodes
        (by simp [Input.decodes, hdecode, Except.isOk, Except.toBool]) d
    | ok update =>
      simp only [Input.update, hdecode]
      exact lastUpdate_of_decoded hdecode d
  | reloadCall | nameAcquired | nameLost | sigterm | jobFinished result =>
    exact lastUpdate_of_not_decodes rfl d

/-- One input. -/
lemma SameDaemon.step (hd : SameDaemon p config d d') (happ : Applied p config d.moment)
    (hca : OneCa p config (lastUpdate d.log).1 (lastUpdate d.log).2) {i : Input}
    (hi : ∀ u ∈ i.update p, OneCa p config u.1 u.2) (h : HashOrders) :
    SameDaemon p config (d.step p config i) (d'.step p config (i.inOrder h)) := by
  have hreceive : ∀ event : FsmEvent, event.isExternal = true → event ≠ .update →
      AppliedIn p config (lastUpdate d.log).1 (lastUpdate d.log).2 d.ctx event := by
    intro event he hu
    have hmicro : Micro p config (fun _ => True) d.moment ⟨⟨d.ctx, event, d.log⟩, false⟩ :=
      .receive he hu
    exact (happ.micro hmicro).1
  obtain ⟨event, o, isWireless⟩ := i
  cases event with
  | updateCall servers mode =>
    change SameDaemon p config (handleUpdateCall p config o isWireless servers mode d)
      (handleUpdateCall p config (o.inOrder h) isWireless servers mode d')
    unfold handleUpdateCall
    cases hdecode : decodeUpdateCall p isWireless servers mode with
    | error error => exact ⟨hd.ctx, hd.log.concat rfl⟩
    | ok update =>
      obtain ⟨D, m⟩ := update
      have hOneCa : OneCa p config D m := hi (D, m) (by simp [Input.update, hdecode, Except.toOption])
      have happlied : AppliedIn p config D m (d.receive D m).ctx .update :=
        ⟨fun _ => rfl, fun _ => rfl, happ.1.table, fun hne => absurd rfl hne⟩
      have hreceived : SameDaemon p config (d.receive D m) (d'.receive D m) := by
        obtain ⟨u, hctx, hu⟩ := hd.ctx
        refine ⟨⟨u, ?_, hu⟩, hd.log.concat rfl⟩
        simp only [Daemon.receive, hctx]
        rfl
      have hend := hreceived.dispatch happlied hOneCa o h
      exact hend.accept
  | reloadCall =>
    have hend := hd.dispatch (hreceive .reload rfl (by simp)) hca o h
    exact ⟨hend.ctx, hend.log.concat rfl⟩
  | nameAcquired => exact hd.dispatch (hreceive .kickoff rfl (by simp)) hca o h
  | nameLost => exact ⟨hd.ctx.setExitCode _, hd.log.concat rfl⟩
  | sigterm => exact hd.dispatch (hreceive .stop rfl (by simp)) hca o h
  | jobFinished result =>
    obtain ⟨hexternal, hne⟩ := jobEvent_isExternal result
    have hend := SameMachine.stateTransition (a := ⟨d.ctx, jobEvent result, d.log⟩)
      (b := ⟨d'.ctx, jobEvent result, d'.log⟩)
      ⟨hd.ctx, rfl, hd.log, hreceive _ hexternal hne⟩ hca o h
    exact ⟨hend.2.1, hend.2.2⟩

/-- A whole run. -/
lemma SameDaemon.runFrom (hd : SameDaemon p config d d') (happ : Applied p config d.moment)
    (hca : OneCa p config (lastUpdate d.log).1 (lastUpdate d.log).2) {is js : List Input}
    (hsame : List.Forall₂ (fun i j => ∃ h, j = i.inOrder h) is js)
    (hupdates : ∀ i ∈ is, ∀ u ∈ i.update p, OneCa p config u.1 u.2) :
    SameDaemon p config ((daemon p config).runFrom d is) ((daemon p config).runFrom d' js) := by
  induction hsame generalizing d d' with
  | nil => exact hd
  | @cons i j is js hij _ ih =>
    obtain ⟨h, rfl⟩ := hij
    have hi := hupdates i List.mem_cons_self
    refine ih (hd.step happ hca hi h) ?_ ?_ fun i' hi' => hupdates i' (List.mem_cons_of_mem _ hi')
    · exact invariant_of_step (fun _ _ ha hmicro => ha.micro hmicro) happ i
    · change OneCa p config (lastUpdate (d.step p config i).log).1 _
      rw [show (daemon p config).step d i = d.step p config i from rfl, lastUpdate_step]
      cases hupdate : i.update p with
      | none => exact hca
      | some u => exact hi u hupdate

end Handlers

/-- Orders of iteration do not matter.  Let two runs differ in the orders only in which hash tables
are iterated, and let neither the static servers alone nor those of any Update leave a choice of the
CA.  Then the daemons end with the same context, up to the order in which the table recorded for the
cache is stored; they have done the same, up to the order of zones in `unbound.conf`, of search
domains in resolv.conf and of commands, the same commands unless one of them has failed; and in that
case the cache has the same zones. -/
theorem runs_in_any_order (p : Platform) (config : Config) {is js : List Input}
    (hsame : List.Forall₂ (fun i j => ∃ h, j = i.inOrder h) is js)
    (hstatic : OneCa p config [] .backup)
    (hupdates : ∀ i ∈ is, ∀ u ∈ i.update p, OneCa p config u.1 u.2) :
    let d := (daemon p config).run is
    let d' := (daemon p config).run js
    SameContext d.ctx d'.ctx ∧ SameEffects p config d.log d'.log ∧
      (¬ CommandFailed d.log → (cache d.log).zones = (cache d'.log).zones) := by
  have hinitial : SameDaemon p config .initial .initial := ⟨⟨none, rfl, .none⟩, .nil⟩
  have hrun := hinitial.runFrom applied_initial hstatic hsame hupdates
  exact ⟨hrun.ctx, hrun.log, fun hok => (hrun.log.cache hok _ _ ⟨rfl, rfl⟩).zones⟩

/-- Every table is iterated in the same order. -/
def HashOrders.all (order : Enumeration ServerEntry) : HashOrders :=
  ⟨order, order, order, order, order, order, order⟩

/-- The entry of one domain is visited before all others, wherever tables are iterated. -/
def HashOrders.first (domain : String) : HashOrders :=
  .all (.first fun entry => entry.1 = domain)

/-- The inputs that lead to a running daemon with servers for two domains, with the given CAs; for
them the cache is restarted. -/
def twoDomains (ca ca' : String) : List Input :=
  let server (address : UInt8) (domain ca : String) : VariantDict :=
    [("address", .byteString [192, 0, 2, address]), ("protocol", .string "dns+tls"),
      ("routing_domains", .stringArray [domain]), ("ca", .string ca)]
  [.ok .nameAcquired, .ok (.jobFinished "done"),
    .ok (.updateCall [server 1 "a.example" ca, server 2 "b.example" ca'] 0),
    .ok (.jobFinished "done")]

/-- With one CA the commands are executed in another order, with the same zones in the end. -/
theorem runs_in_any_order_two_domains :
    let is := twoDomains "/ca.pem" "/ca.pem"
    let d := (daemon .plain .plain).run is
    let d' := (daemon .plain .plain).run (is.map (Input.inOrder · (.first "b.example")))
    d.ctx.currentState = .running ∧ executed d.log ≠ executed d'.log ∧
      (cache d.log).zones = (cache d'.log).zones := by
  intro is d d'
  have hagree : ∀ D : List ServerUri, ∀ m, (∀ table ∈ serverListToHashTable .plain D,
      ∀ entries ∈ [table.entries, usedEntries m table], ∀ entry ∈ entries,
        ∀ s ∈ caCandidates m entry, s.certificationAuthority = some "/ca.pem") →
      OneCa .plain .plain D m := by
    intro D m h table htable
    exact ⟨agreeOnCa_of_candidates (h table htable _ (by simp)),
      agreeOnCa_of_candidates (h table htable _ (by simp))⟩
  have hsame : List.Forall₂ (fun i j => ∃ h, j = i.inOrder h) is
      (is.map (Input.inOrder · (.first "b.example"))) :=
    List.forall₂_map_right_iff.mpr (List.forall₂_same.mpr fun i _ => ⟨_, rfl⟩)
  refine ⟨by decide, by decide, (runs_in_any_order .plain .plain hsame ?_ ?_).2.2 (by decide)⟩
  · exact hagree _ _ (by decide)
  · have hupdates : ∀ i ∈ twoDomains "/ca.pem" "/ca.pem", ∀ u ∈ i.update .plain,
        ∀ table ∈ serverListToHashTable .plain u.1,
        ∀ entries ∈ [table.entries, usedEntries u.2 table], ∀ entry ∈ entries,
          ∀ s ∈ caCandidates u.2 entry, s.certificationAuthority = some "/ca.pem" := by
      decide
    exact fun i hi u hu => hagree _ _ (hupdates i hi u hu)

/-- With two CAs of the same priority the order decides which one the cache gets. -/
example :
    let is := twoDomains "/a.pem" "/b.pem"
    ((daemon .plain .plain).run is).ctx.effectiveCa ≠
      ((daemon .plain .plain).run
        (is.map (Input.inOrder · (.first "a.example")))).ctx.effectiveCa := by
  decide

end Dnsconfd
