import Dnsconfd.DbusServer.Applied
import Dnsconfd.Fsm.Effects
import Dnsconfd.ServiceManagement.StatusFile
import Dnsconfd.UnboundManager.Confinement

/-!
# What an Update changes

A running daemon does not hand all servers to the cache again when an Update arrives.  It selects the
servers of every domain, compares them with those that it has recorded for the cache, and executes
commands for the domains that differ.  The record is what was selected for the Update before, so that
the domains that are touched depend on the two Updates only (`update_touches_changed`): not on what
happened between them, on restarts, or on the orders in which the tables are visited.  An Update that
repeats the one before touches none.
-/

namespace Dnsconfd

open Library

variable {p : Platform} {config : Config}

/-! ## Selections and commands -/

/-- The servers that are used for a domain, out of all servers. -/
def selectedServers (p : Platform) (servers : List ServerUri) (mode : Mode) (domain : String) :
    Option (List ServerUri) :=
  ((serverListToHashTable p servers).bind fun table => table.lookup domain).bind
    (usedServersOf mode domain)

/-- The servers of a domain change in a way that `compare_servers` notices. -/
def selectionChanges : Option (List ServerUri) → Option (List ServerUri) → Bool
  | none, none => false
  | some old, some new => !sameServers new old
  | _, _ => true

lemma isNamed_eq_selectionChanges (old : Option ServerTable) (domain : String)
    (new : Option (List ServerUri)) :
    isNamed old domain new = selectionChanges (old.bind fun table => table.lookup domain) new := by
  cases new with
  | none => cases h : old.bind fun table => table.lookup domain <;> simp [isNamed, selectionChanges, h]
  | some servers =>
    cases h : old.bind fun table => table.lookup domain <;>
      simp [isNamed, unchangedDomain, selectionChanges, h]

/-- A command of `update` names a domain whose servers change. -/
lemma isNamed_of_mem_updateCommands {o : UpdateOutcome} {old : Option ServerTable}
    {new : ServerTable} {command : UnboundCommand} (h : command ∈ updateCommands p o old new) :
    isNamed old command.domain (new.lookup command.domain) = true := by
  rcases List.mem_append.mp h with hadd | hremove
  · obtain ⟨⟨domain, servers⟩, hvisited, hmem⟩ := List.mem_flatMap.mp hadd
    have hlookup : new.lookup domain = some servers := (Table.mem_visit_iff_lookup _ _).mp hvisited
    split_ifs at hmem with hsame
    · cases hmem
    have hdomain : command.domain = domain := by
      simp only [addDomain, List.mem_cons, List.not_mem_nil, or_false] at hmem
      rcases hmem with rfl | rfl <;> simp
    rw [hdomain, hlookup]
    simpa [isNamed] using hsame
  · cases old with
    | none => cases hremove
    | some table =>
      obtain ⟨⟨domain, servers⟩, hvisited, hmem⟩ := List.mem_flatMap.mp hremove
      have hlookup : table.lookup domain = some servers :=
        (Table.mem_visit_iff_lookup _ _).mp hvisited
      split_ifs at hmem with hnew
      · cases hmem
      have hdomain : command.domain = domain := by
        simp only [removeDomain, List.mem_cons, List.not_mem_nil, or_false] at hmem
        rcases hmem with rfl | rfl
        · split_ifs with hroot
          · rfl
          · exact (not_not.mp hroot).symm
        · rfl
      have hnone : new.lookup domain = none := by simpa using hnew
      rw [hdomain, hnone]
      simp [isNamed, hlookup]

/-- A domain whose servers change is named by a command of `update`. -/
lemma exists_mem_updateCommands (o : UpdateOutcome) {old : Option ServerTable} {new : ServerTable}
    {domain : String} (h : isNamed old domain (new.lookup domain) = true) :
    ∃ command ∈ updateCommands p o old new, command.domain = domain := by
  refine ⟨.flushZone domain, ?_, rfl⟩
  cases hnew : new.lookup domain with
  | some servers =>
    rw [hnew] at h
    have hchanged : unchangedDomain old domain servers = false := by simpa [isNamed] using h
    refine List.mem_append_left _ (List.mem_flatMap.mpr ⟨⟨domain, servers⟩, ?_, ?_⟩)
    · exact (Table.mem_visit_iff_lookup _ _).mpr hnew
    · simp [hchanged, addDomain]
  | none =>
    rw [hnew] at h
    cases old with
    | none => cases h
    | some table =>
      obtain ⟨servers, hold⟩ := Option.isSome_iff_exists.mp h
      refine List.mem_append_right _ (List.mem_flatMap.mpr ⟨⟨domain, servers⟩, ?_, ?_⟩)
      · exact (Table.mem_visit_iff_lookup _ _).mpr hold
      · simp [hnew, removeDomain]

/-! ## The iterations of an Update -/

/-- A command for the domain has been executed. -/
def Touched (effects : List Effect) (domain : String) : Prop :=
  ∃ command ok, .commandExecuted command ok ∈ effects ∧ command.domain = domain

lemma touched_append {l l' : List Effect} {domain : String} :
    Touched (l ++ l') domain ↔ Touched l domain ∨ Touched l' domain := by
  simp only [Touched, List.mem_append, or_and_right, exists_or]

lemma not_touched_of_forall {l : List Effect} (h : ∀ command ok, .commandExecuted command ok ∉ l)
    (domain : String) : ¬ Touched l domain := by
  rintro ⟨command, ok, hmem, -⟩
  exact h command ok hmem

/-- Commands are executed only when resolv.conf is set. -/
lemma Edge.not_touched {o : Outcomes} {ctx : Context} {event : FsmEvent} {r : ActionResult}
    (hedge : Edge p config o ctx event r) (happly : isApply ctx.currentState event = false)
    (domain : String) :
    ¬ Touched (.transitionMade ctx.currentState event :: r.effects) domain := by
  refine not_touched_of_forall (fun command ok hmem => ?_) domain
  rcases List.mem_cons.mp hmem with heq | hmem
  · cases heq
  · have hof := hedge.isOf hmem
    simp [Effect.isOf, happly] at hof

/-- An Update of a running daemon. -/
lemma Edge.eq_of_updateRunning {o : Outcomes} {ctx : Context} {r : ActionResult}
    (hedge : Edge p config o ctx .update r) (hs : ctx.currentState = .running) :
    r = (setResolvConf p config o.resolvConf
      (updateContext p config (setDynamicServers ctx))).enter .settingResolvConf := by
  cases hedge with
  | updateRunning => rfl
  | refresh h => rcases h with h | h <;> rw [hs] at h <;> cases h
  | kickoff h | ignored h | abandon h | stopJob h => rw [hs] at h; cases h

/-- What follows when resolv.conf has been written or could not be. -/
lemma Edge.eq_of_settingResolvConf {o : Outcomes} {ctx : Context} {event : FsmEvent}
    {r : ActionResult} (hedge : Edge p config o ctx event r)
    (hs : ctx.currentState = .settingResolvConf) :
    (event = .success ∧ r = (updateDnsManager p config o.update ctx).enter .updatingDnsManager) ∨
      (event = .failure ∧ r.ctx.currentState = .submittingStopJob) := by
  cases hedge with
  | resolvConfSet => exact Or.inl ⟨rfl, rfl⟩
  | resolvConfFailed => exact Or.inr ⟨rfl, rfl⟩
  | refresh h => rcases h with h | h <;> rw [hs] at h <;> cases h
  | kickoff h | ignored h | abandon h | stopJob h =>
    rw [hs] at h
    cases event <;> cases h
  | startJob h | startJobSubmitted h | startJobDone h | startJobFailed h | updateRunning h
  | updated h | updateFailed h | stopRunning h | stopJobSubmitted h | quit h =>
    rw [hs] at h
    cases h

/-- The context has what an Update asks for and still records for the cache what was there before. -/
structure AwaitsChange (p : Platform) (config : Config) (old : Option ServerTable)
    (D : List ServerUri) (m : Mode) (ctx : Context) : Prop where
  recorded : ctx.currentUnboundDomainToServers = old
  table : ctx.currentDomainToServers = serverListToHashTable p (config.staticServers ++ D)
  mode : ctx.resolutionMode = m

/-- The servers of a domain change. -/
def Changed (p : Platform) (config : Config) (old : Option ServerTable) (D : List ServerUri)
    (m : Mode) (domain : String) : Prop :=
  selectionChanges (old.bind fun table => table.lookup domain)
    (selectedServers p (config.staticServers ++ D) m domain) = true

/-- Where the handling of an Update of a running daemon has got to, with the effects so far: the
Update is at hand, resolv.conf is set, the cache is updated, or the daemon does something else. -/
inductive Handling (p : Platform) (config : Config) (old : Option ServerTable) (D : List ServerUri)
    (m : Mode) (ctx : Context) (event : FsmEvent) (l : List Effect) : Prop where
  | atHand (hs : ctx.currentState = .running) (hevent : event = .update)
      (hawaits : AwaitsChange p config old D m (updateContext p config (setDynamicServers ctx)))
      (hl : ∀ domain, ¬ Touched l domain)
  | setting (hs : ctx.currentState = .settingResolvConf) (hawaits : AwaitsChange p config old D m ctx)
      (hl : ∀ domain, ¬ Touched l domain)
  | updated (hs : (ctx.currentState = .updatingDnsManager ∧ event = .success) ∨
        (ctx.currentState = .running ∧ event = .none))
      (hl : ∀ domain, Touched l domain ↔ Changed p config old D m domain)
  | other (hs : ctx.currentState ≠ .settingResolvConf ∧ ctx.currentState ≠ .running ∧
        ¬ (ctx.currentState = .updatingDnsManager ∧ event = .success))
      (hevent : event ≠ .jobSuccess) (hl : ∀ domain, Touched l domain → Changed p config old D m domain)

/-- What `update` compares is what changes. -/
lemma AwaitsChange.isNamed_eq {old : Option ServerTable} {D : List ServerUri} {m : Mode}
    {ctx : Context} (h : AwaitsChange p config old D m ctx) {table : ServerTable}
    (htable : ctx.currentDomainToServers = some table) (order : Enumeration ServerEntry)
    (domain : String) :
    isNamed ctx.currentUnboundDomainToServers domain
        ((usedServersTable order table ctx.resolutionMode).lookup domain) = true ↔
      Changed p config old D m domain := by
  have hselected : (usedServersTable order table ctx.resolutionMode).lookup domain =
      selectedServers p (config.staticServers ++ D) m domain := by
    rw [usedServersTable, Table.lookup_collect_visit, selectedServers, ← h.table, htable, h.mode]
    rfl
  rw [hselected, h.recorded, isNamed_eq_selectionChanges]
  rfl

/-- The commands of `update` are for domains that change. -/
lemma AwaitsChange.changed_of_touched {old : Option ServerTable} {D : List ServerUri} {m : Mode}
    {ctx : Context} (h : AwaitsChange p config old D m ctx) {o : UpdateOutcome} {domain : String}
    (htouched : Touched (update p config o ctx).2 domain) : Changed p config old D m domain := by
  obtain ⟨command, ok, hmem, rfl⟩ := htouched
  cases htable : ctx.currentDomainToServers with
  | none =>
    rw [update, htable] at hmem
    simp at hmem
  | some table =>
    have hcommand := mem_updateCommands_of_mem_update htable hmem
    exact (h.isNamed_eq htable _ _).mp (isNamed_of_mem_updateCommands hcommand)

/-- If `update` succeeds, every domain that changes is named in one of its commands. -/
lemma AwaitsChange.touched_of_changed {old : Option ServerTable} {D : List ServerUri} {m : Mode}
    {ctx : Context} (h : AwaitsChange p config old D m ctx) {o : UpdateOutcome}
    {result : ServerTable} {effects : List Effect}
    (hupdate : update p config o ctx = (.done result, effects)) {domain : String}
    (hchanged : Changed p config old D m domain) : Touched effects domain := by
  obtain ⟨table, htable, hresult, happly⟩ := update_done hupdate
  obtain ⟨-, hadds, hremoves, heffects⟩ := applyUpdate_done happly
  have hnamed := (h.isNamed_eq htable o.tableOrder domain).mpr hchanged
  rw [← hresult] at hnamed
  obtain ⟨command, hmem, hdomain⟩ := @exists_mem_updateCommands p o _ _ _ hnamed
  refine ⟨command, true, ?_, hdomain⟩
  rw [heffects, executeCommands_ok hadds, executeCommands_ok hremoves, ← List.map_append]
  exact List.mem_map_of_mem hmem

/-- Only a running daemon and one whose start job is done set resolv.conf and update the cache. -/
lemma nextState_of_other {state next : FsmState} {event : FsmEvent}
    (hnext : nextState state event = some next)
    (hs : state ≠ .settingResolvConf ∧ state ≠ .running ∧
      ¬ (state = .updatingDnsManager ∧ event = .success)) (hevent : event ≠ .jobSuccess) :
    next ≠ .settingResolvConf ∧ next ≠ .running ∧ next ≠ .updatingDnsManager := by
  cases state <;> cases event <;>
    simp only [nextState, reduceCtorEq, Option.some.injEq] at hnext <;> subst hnext <;> simp_all

/-- An iteration that executes no command and does not lead to RUNNING. -/
lemma Handling.leave {old : Option ServerTable} {D : List ServerUri} {m : Mode} {o : Outcomes}
    {ctx : Context} {event : FsmEvent} {l : List Effect} {r : ActionResult}
    (hedge : Edge p config o ctx event r) (happly : isApply ctx.currentState event = false)
    (hl : ∀ domain, Touched l domain → Changed p config old D m domain)
    (hs : r.ctx.currentState ≠ .settingResolvConf ∧ r.ctx.currentState ≠ .running ∧
      r.ctx.currentState ≠ .updatingDnsManager) :
    Handling p config old D m r.ctx r.event
      (l ++ .transitionMade ctx.currentState event :: r.effects) := by
  refine .other ⟨hs.1, hs.2.1, fun h => hs.2.2 h.1⟩ hedge.event_ne_jobSuccess fun domain h => ?_
  exact hl domain ((touched_append.mp h).resolve_right (hedge.not_touched happly domain))

/-- The iteration that updates the cache. -/
lemma Handling.apply {old : Option ServerTable} {D : List ServerUri} {m : Mode} {o : UpdateOutcome}
    {ctx : Context} {l : List Effect} {state : FsmState} (hawaits : AwaitsChange p config old D m ctx)
    (hl : ∀ domain, ¬ Touched l domain) :
    let r := (updateDnsManager p config o ctx).enter .updatingDnsManager
    Handling p config old D m r.ctx r.event (l ++ .transitionMade state .success :: r.effects) := by
  have htouched : ∀ {l' : List Effect} {domain : String},
      Touched (l ++ .transitionMade state .success :: l') domain ↔ Touched l' domain := by
    intro l' domain
    rw [touched_append, or_iff_right (hl domain), ← List.singleton_append, touched_append]
    exact or_iff_right (not_touched_of_forall (by simp) domain)
  rcases updateDnsManager_cases p config o ctx with
    ⟨result, effects, hupdate, heq⟩ | ⟨effects, event, hevent, heffects, heq⟩
  · rw [heq]
    refine .updated (Or.inl ⟨rfl, rfl⟩) fun domain => ?_
    dsimp only [ActionResult.enter]
    rw [htouched, touched_append, or_iff_left (not_touched_of_forall (by simp) domain)]
    refine ⟨fun h => hawaits.changed_of_touched (o := o) ?_, hawaits.touched_of_changed hupdate⟩
    rw [hupdate]
    exact h
  · rw [heq]
    refine .other ?_ ?_ fun domain h => ?_
    · rcases hevent with rfl | rfl <;> simp [ActionResult.enter]
    · rcases hevent with rfl | rfl <;> simp [ActionResult.enter]
    · exact hawaits.changed_of_touched (heffects ▸ htouched.mp h)

/-- The handling goes on. -/
lemma Handling.edge {old : Option ServerTable} {D : List ServerUri} {m : Mode} {o : Outcomes}
    {ctx : Context} {event : FsmEvent} {l : List Effect} {r : ActionResult}
    (h : Handling p config old D m ctx event l) (hedge : Edge p config o ctx event r) :
    Handling p config old D m r.ctx r.event
      (l ++ .transitionMade ctx.currentState event :: r.effects) := by
  cases h with
  | atHand hs hevent hawaits hl =>
    subst hevent
    have hnone : ∀ domain, ¬ Touched
        (l ++ .transitionMade ctx.currentState .update :: r.effects) domain := by
      intro domain h
      rcases touched_append.mp h with h | h
      · exact hl domain h
      · exact hedge.not_touched (by rw [hs]; rfl) domain h
    obtain rfl := hedge.eq_of_updateRunning hs
    refine .setting rfl ⟨?_, ?_, ?_⟩ hnone
    · simpa [ActionResult.enter] using hawaits.recorded
    · simpa [ActionResult.enter] using hawaits.table
    · simpa [ActionResult.enter] using hawaits.mode
  | setting hs hawaits hl =>
    rcases hedge.eq_of_settingResolvConf hs with ⟨rfl, rfl⟩ | ⟨rfl, hnext⟩
    · exact .apply hawaits hl
    · exact .leave hedge (by rw [hs]; rfl) (fun domain h => absurd h (hl domain))
        (by rw [hnext]; simp)
  | updated hs hl =>
    rcases hs with ⟨hs, rfl⟩ | ⟨hs, rfl⟩
    · have hr := hedge.eq_of_updated hs
      refine .updated (Or.inr (by rw [hr]; exact ⟨rfl, rfl⟩)) fun domain => ?_
      rw [touched_append, hl domain]
      exact or_iff_left (hedge.not_touched (by rw [hs]; rfl) domain)
    · have hnext := hedge.nextState_eq
      rw [hs] at hnext
      cases hnext
  | other hs hevent hl =>
    refine .leave hedge ?_ hl (nextState_of_other hedge.nextState_eq hs hevent)
    revert hs
    cases ctx.currentState <;> simp [isApply]

/-! ## The Update before -/

/-- An Update call that passes parsing. -/
def Input.decodes (p : Platform) (i : Input) : Bool :=
  match i.event with
  | .updateCall servers mode => (decodeUpdateCall p i.isWireless servers mode).isOk
  | _ => false

/-- Handling an event does not change what the last Update is. -/
lemma lastUpdate_stateTransition (o : Outcomes) (ctx : Context) (event : FsmEvent)
    (log : List Effect) :
    lastUpdate (stateTransition p config o ctx event log).state.log = lastUpdate log := by
  refine stateTransition_invariant (J := fun mach => lastUpdate mach.log = lastUpdate log) ?_ rfl
  intro ctx' event' log' r h hedge
  exact (hedge.lastUpdate_eq log').trans h

lemma lastUpdate_dispatch (o : Outcomes) (event : FsmEvent) (d : Daemon) :
    lastUpdate (dispatch p config o event d).log = lastUpdate d.log := by
  cases hacc : (stateTransition p config o d.ctx event d.log).accepted with
  | true =>
    rw [dispatch_of_accepted hacc]
    exact lastUpdate_stateTransition o d.ctx event d.log
  | false =>
    rw [dispatch_of_refused hacc]
    exact lastUpdate_append (by simp)

/-- An Update call that passes parsing is the last Update from then on. -/
lemma lastUpdate_of_decoded {o : Outcomes} {isWireless : String → Bool} {servers : List VariantDict}
    {mode : UInt32} {D : List ServerUri} {m : Mode}
    (hdecode : decodeUpdateCall p isWireless servers mode = .ok (D, m)) (d : Daemon) :
    lastUpdate (d.step p config ⟨.updateCall servers mode, o, isWireless⟩).log = (D, m) := by
  change lastUpdate (handleUpdateCall p config o isWireless servers mode d).log = _
  rw [handleUpdateCall, hdecode]
  dsimp only [Daemon.accept]
  rw [lastUpdate_append (by simp), lastUpdate_dispatch, Daemon.receive, lastUpdate,
    List.foldl_append]
  rfl

/-- Until there is another one. -/
lemma lastUpdate_of_not_decodes {i : Input} (h : i.decodes p = false) (d : Daemon) :
    lastUpdate (d.step p config i).log = lastUpdate d.log := by
  obtain ⟨event, o, isWireless⟩ := i
  cases event with
  | updateCall servers mode =>
    change lastUpdate (handleUpdateCall p config o isWireless servers mode d).log = _
    cases hdecode : decodeUpdateCall p isWireless servers mode with
    | error error =>
      rw [handleUpdateCall, hdecode]
      exact lastUpdate_append (by simp)
    | ok update => simp [Input.decodes, hdecode, Except.isOk, Except.toBool] at h
  | reloadCall => exact (lastUpdate_append (by simp)).trans (lastUpdate_dispatch o .reload d)
  | nameAcquired => exact lastUpdate_dispatch o .kickoff d
  | nameLost => exact lastUpdate_append (by simp)
  | sigterm => exact lastUpdate_dispatch o .stop d
  | jobFinished result => exact lastUpdate_stateTransition o d.ctx (jobEvent result) d.log

/-- What a running daemon records for the cache was selected for the last Update. -/
lemma recordedServers_eq_selectedServers {is : List Input}
    (hrunning : ((daemon p config).run is).ctx.currentState = .running) (domain : String) :
    recordedServers ((daemon p config).run is).ctx domain =
      selectedServers p
        (config.staticServers ++ (lastUpdate ((daemon p config).run is).log).1)
        (lastUpdate ((daemon p config).run is).log).2 domain := by
  have happ : AppliedIn p config (lastUpdate ((daemon p config).run is).log).1
      (lastUpdate ((daemon p config).run is).log).2 ((daemon p config).run is).ctx .none :=
    (applied_run is).1
  generalize (daemon p config).run is = d at hrunning happ ⊢
  have hlive : d.ctx.currentState.isLive = true := by rw [hrunning]; rfl
  obtain ⟨-, table, order, htable, hrecorded⟩ := happ.upToDate (by simp) (Or.inl hrunning)
  have hall : d.ctx.currentDomainToServers =
      serverListToHashTable p (config.staticServers ++ (lastUpdate d.log).1) := by
    rw [happ.table (by rw [hrunning]; rfl), show d.ctx.currentDynamicServers = _ from
      happ.dynamic hlive]
  rw [recordedServers, hrecorded, selectedServers, ← hall, htable, happ.mode hlive]
  exact Table.lookup_collect_visit _ order table domain

/-! ## The Update -/

/-- A running daemon touches, on an Update that passes parsing, only domains whose servers are not
those that were selected for the Update before; and if it is running again when it has handled the
Update, it has touched all of these.  In particular nothing is touched by an Update that repeats the
one before. -/
theorem update_touches_changed (p : Platform) (config : Config) (is : List Input)
    (hrunning : ((daemon p config).run is).ctx.currentState = .running) (o : Outcomes)
    (isWireless : String → Bool) (servers : List VariantDict) (mode : UInt32) (D : List ServerUri)
    (m : Mode) (hdecode : decodeUpdateCall p isWireless servers mode = .ok (D, m)) :
    let d := (daemon p config).run is
    let d' := d.step p config ⟨.updateCall servers mode, o, isWireless⟩
    let effects := d'.log.drop d.log.length
    let changes := fun domain => selectionChanges
      (selectedServers p (config.staticServers ++ (lastUpdate d.log).1) (lastUpdate d.log).2 domain)
      (selectedServers p (config.staticServers ++ D) m domain) = true
    (∀ domain, Touched effects domain → changes domain) ∧
      (d'.ctx.currentState = .running → ∀ domain, changes domain → Touched effects domain) := by
  intro d d' effects changes
  have hchanged : ∀ domain, Changed p config d.ctx.currentUnboundDomainToServers D m domain ↔
      changes domain := by
    intro domain
    have hold := recordedServers_eq_selectedServers hrunning domain
    rw [recordedServers] at hold
    rw [Changed, hold]
  have hloop : ∃ l, (stateTransition p config o (d.receive D m).ctx .update
      (d.receive D m).log).state.log = d.log ++ l ∧
      Handling p config d.ctx.currentUnboundDomainToServers D m
        (stateTransition p config o (d.receive D m).ctx .update (d.receive D m).log).state.ctx
        (stateTransition p config o (d.receive D m).ctx .update (d.receive D m).log).state.event l := by
    refine stateTransition_invariant (J := fun mach => ∃ l, mach.log = d.log ++ l ∧
      Handling p config d.ctx.currentUnboundDomainToServers D m mach.ctx mach.event l) ?_
      ⟨[.updateParsed D m], rfl, .atHand hrunning rfl ⟨rfl, rfl, rfl⟩
        (not_touched_of_forall (by simp))⟩
    rintro ctx event log r ⟨l, hlog, hhandling⟩ hedge
    refine ⟨_, ?_, hhandling.edge hedge⟩
    rw [show log = d.log ++ l from hlog, List.append_assoc]
  have hacc : (stateTransition p config o (d.receive D m).ctx .update
      (d.receive D m).log).accepted = true := by
    by_contra hrefused
    have hnone := (stateTransition_unchanged (Bool.eq_false_iff.mpr hrefused)).1
    have hstate : (d.receive D m).ctx.currentState = .running := hrunning
    simp [transitionAction, hstate] at hnone
  obtain ⟨l, hlog, hhandling⟩ := hloop
  rw [(stateTransition_rests hacc).1] at hhandling
  have hd' : d' = (dispatch p config o .update (d.receive D m)).accept := by
    change handleUpdateCall p config o isWireless servers mode d = _
    rw [handleUpdateCall, hdecode]
  have hctx : d'.ctx = (stateTransition p config o (d.receive D m).ctx .update
      (d.receive D m).log).state.ctx := by
    rw [hd', dispatch_of_accepted hacc]
    rfl
  have heffects : ∀ domain, Touched effects domain ↔ Touched l domain := by
    intro domain
    have hdrop : effects = l ++ [.updateReplied d'.ctx.requestedConfigurationSerial
        "Update accepted"] := by
      change d'.log.drop d.log.length = _
      rw [hctx, hd', dispatch_of_accepted hacc, Daemon.accept, hlog, List.append_assoc,
        List.drop_left]
    rw [hdrop, touched_append]
    exact or_iff_left (not_touched_of_forall (by simp) domain)
  rw [← hctx] at hhandling
  cases hhandling with
  | atHand hs hevent => cases hevent
  | setting hs hawaits hl =>
    refine ⟨fun domain h => absurd ((heffects domain).mp h) (hl domain), fun h => ?_⟩
    rw [hs] at h
    cases h
  | updated hs hl =>
    exact ⟨fun domain h => (hchanged domain).mp ((hl domain).mp ((heffects domain).mp h)),
      fun _ domain h => (heffects domain).mpr ((hl domain).mpr ((hchanged domain).mpr h))⟩
  | other hs hevent hl =>
    exact ⟨fun domain h => (hchanged domain).mp (hl domain ((heffects domain).mp h)),
      fun h => absurd h hs.2.1⟩

/-- The first Update of a running daemon brings a server, and a second one repeats it. -/
theorem update_touches_changed_once :
    let call := Input.ok (.updateCall [[("address", .byteString [192, 0, 2, 1])]] 0)
    let d := (daemon .plain .plain).run [.ok .nameAcquired, .ok (.jobFinished "done")]
    let d' := (daemon .plain .plain).run [.ok .nameAcquired, .ok (.jobFinished "done"), call]
    Touched ((d.step .plain .plain call).log.drop d.log.length) "." ∧
      ¬ Touched ((d'.step .plain .plain call).log.drop d'.log.length) "." := by
  have hdecode : decodeUpdateCall .plain (fun _ => false)
      [[("address", .byteString [192, 0, 2, 1])]] 0 =
      .ok ([{ ServerUri.initial with address := .inet #v[192, 0, 2, 1] 53, routingDomains := ["."] }],
        .backup) := by
    decide
  have hfirst := update_touches_changed .plain .plain
    [.ok .nameAcquired, .ok (.jobFinished "done")] (by decide) .allOk _ _ _ _ _ hdecode
  have hsecond := update_touches_changed .plain .plain [.ok .nameAcquired, .ok (.jobFinished "done"),
    .ok (.updateCall [[("address", .byteString [192, 0, 2, 1])]] 0)] (by decide) .allOk _ _ _ _ _
    hdecode
  exact ⟨hfirst.2 (by decide) "." (by decide), fun h => absurd (hsecond.1 "." h) (by decide)⟩

end Dnsconfd
