import Dnsconfd.DbusServer.Daemon
import Dnsconfd.Fsm.Serials

/-!
# What the state RUNNING means

In the state RUNNING the daemon has applied the configuration it was last asked for: the serials
agree, and the table of servers recorded for the cache is the table of used servers made from the
static servers and those of the last Update.  The fields of the context are written at different
times, so the invariant `AppliedIn` says for every state which of them are up to date.
-/

namespace Dnsconfd

open Library

/-! ## The last Update -/

/-- The servers and the mode of the last Update, after one further effect. -/
def lastUpdateStep (u : List ServerUri × Mode) : Effect → List ServerUri × Mode
  | .updateParsed servers mode => (servers, mode)
  | _ => u

/-- The servers and the mode of the last Update call that passed parsing; no servers and the mode
backup if there was none. -/
def lastUpdate (log : List Effect) : List ServerUri × Mode :=
  log.foldl lastUpdateStep ([], .backup)

/-- Effects other than `updateParsed` do not change what the last Update is. -/
lemma lastUpdate_append {log l : List Effect} (h : ∀ D m, .updateParsed D m ∉ l) :
    lastUpdate (log ++ l) = lastUpdate log := by
  rw [lastUpdate, List.foldl_append]
  refine foldl_eq_self (fun e he u => ?_) _
  cases e with
  | updateParsed D m => exact absurd he (h D m)
  | _ => rfl

/-- The iterations of the state machine do not decode Updates. -/
lemma Edge.lastUpdate_eq {p : Platform} {config : Config} {o : Outcomes} {ctx : Context}
    {event : FsmEvent} {r : ActionResult} (h : Edge p config o ctx event r) (log : List Effect) :
    lastUpdate (log ++ .transitionMade ctx.currentState event :: r.effects) =
      lastUpdate log := by
  have hquiet : ∀ l : List Effect, (∀ e ∈ l, e.isQuiet = true) → ∀ D m, .updateParsed D m ∉ l :=
    fun l hl D m hmem => by simpa [Effect.isQuiet] using hl _ hmem
  refine lastUpdate_append fun D m hmem => ?_
  rcases List.mem_cons.mp hmem with hmem | hmem
  · cases hmem
  cases h.serialChange with
  | takeover hs hreq hcur hdyn hstate hq => exact hquiet _ hq D m hmem
  | kickoff hs hreq hcur hdyn hstate hq => exact hquiet _ hq D m hmem
  | quiet hs hreq hcur hdyn hrunning hupdating hq => exact hquiet _ hq D m hmem
  | applied hs hevent hreq hcur hdyn hstate hq heffects =>
    rw [heffects] at hmem
    rcases List.mem_append.mp hmem with hmem | hmem
    · exact hquiet _ hq D m hmem
    · simp at hmem

/-! ## The invariant -/

/-- The states before the daemon starts to stop. -/
def FsmState.isLive : FsmState → Bool
  | .starting => true
  | .configuringDnsManager => true
  | .submittingStartJob => true
  | .waitingForStartJob => true
  | .settingResolvConf => true
  | .updatingDnsManager => true
  | .running => true
  | _ => false

/-- The states after the first kickoff and before the daemon starts to stop. -/
def FsmState.isConfigured (state : FsmState) : Bool :=
  state.isLive && state ≠ .starting

/-- The table recorded for the cache and the serials are those of the context's table of servers
and mode. -/
def UpToDate (ctx : Context) : Prop :=
  ctx.currentConfigurationSerial = ctx.requestedConfigurationSerial ∧
    ∃ table order, ctx.currentDomainToServers = some table ∧
      ctx.currentUnboundDomainToServers = some (usedServersTable order table ctx.resolutionMode)

/-- The invariant, for the servers `D` and the mode `m` of the last Update: an Update at hand has
put its servers into `newDynamicServers`, otherwise they are in use; from the first kickoff on the
table of servers is made from the servers in use; and once `update` has succeeded everything is up
to date, until the next Update is at hand. -/
structure AppliedIn (p : Platform) (config : Config) (D : List ServerUri) (m : Mode)
    (ctx : Context) (event : FsmEvent) : Prop where
  mode : ctx.currentState.isLive = true → ctx.resolutionMode = m
  dynamic : ctx.currentState.isLive = true →
    (if event = .update then ctx.newDynamicServers else ctx.currentDynamicServers) = D
  table : ctx.currentState.isConfigured = true → ctx.currentDomainToServers =
    serverListToHashTable p (config.staticServers ++ ctx.currentDynamicServers)
  upToDate : event ≠ .update → ctx.currentState = .running ∨
    (ctx.currentState = .updatingDnsManager ∧ event = .success) → UpToDate ctx

variable {p : Platform} {config : Config}

/-- A state in which the daemon stops asks for nothing. -/
lemma appliedIn_of_not_live {D : List ServerUri} {m : Mode} {ctx : Context} {event : FsmEvent}
    (h : ctx.currentState.isLive = false) : AppliedIn p config D m ctx event := by
  refine ⟨?_, ?_, ?_, ?_⟩
  · rw [h]
    simp
  · rw [h]
    simp
  · rw [FsmState.isConfigured, h]
    simp
  · rintro - (hs | ⟨hs, -⟩) <;> rw [hs] at h <;> cases h

/-- A change of state, and of fields that the invariant does not look at, within the live
states. -/
lemma AppliedIn.move {D : List ServerUri} {m : Mode} {ctx ctx' : Context} {event event' : FsmEvent}
    (h : AppliedIn p config D m ctx event) (hlive : ctx.currentState.isConfigured = true)
    (hevent : event ≠ .update) (hevent' : event' ≠ .update)
    (hmode : ctx'.resolutionMode = ctx.resolutionMode)
    (hdyn : ctx'.currentDynamicServers = ctx.currentDynamicServers)
    (htable : ctx'.currentDomainToServers = ctx.currentDomainToServers)
    (hup : ctx'.currentState = .running ∨
      (ctx'.currentState = .updatingDnsManager ∧ event' = .success) → UpToDate ctx') :
    AppliedIn p config D m ctx' event' := by
  have hlive' : ctx.currentState.isLive = true := by
    rw [FsmState.isConfigured, Bool.and_eq_true] at hlive
    exact hlive.1
  have hD := h.dynamic hlive'
  rw [if_neg hevent] at hD
  refine ⟨fun _ => hmode.trans (h.mode hlive'), fun _ => ?_, fun _ => ?_, fun _ => hup⟩
  · rw [if_neg hevent', hdyn, hD]
  · rw [htable, hdyn]
    exact h.table hlive

/-- The states in which a kickoff takes place are live, and an Update does not cause one. -/
lemma isLive_of_isKickoff {state : FsmState} {event : FsmEvent}
    (h : isKickoff state event = true) : state.isLive = true ∧ event ≠ .update := by
  revert h
  cases state <;> cases event <;> simp [isKickoff, FsmState.isLive]

/-- The invariant is preserved by every edge of the state machine. -/
lemma AppliedIn.edge {D : List ServerUri} {m : Mode} {o : Outcomes} {ctx : Context}
    {event : FsmEvent} {r : ActionResult} (h : AppliedIn p config D m ctx event)
    (hedge : Edge p config o ctx event r) : AppliedIn p config D m r.ctx r.event := by
  cases hedge with
  | refresh hs =>
    have hlive : ctx.currentState.isLive = true := by rcases hs with hs | hs <;> rw [hs] <;> rfl
    refine ⟨fun _ => h.mode hlive, fun _ => h.dynamic hlive, fun _ => rfl, fun _ hup => ?_⟩
    rcases hs with hs | hs <;> simp [updateContext, setDynamicServers, hs] at hup
  | kickoff hs hn =>
    obtain ⟨hlive, hevent⟩ := isLive_of_isKickoff hs
    have hdyn := h.dynamic hlive
    rw [if_neg hevent] at hdyn
    refine ⟨fun _ => ?_, fun _ => ?_, fun _ => ?_, fun _ hup => ?_⟩
    · simpa [updateContext] using h.mode hlive
    · have hne : (fsmStartingEventKickoff p config o.kickoff ctx).event ≠ .update := by
        rcases fsmStartingEventKickoff_event p config o.kickoff ctx with he | he <;> simp [he]
      rw [if_neg hne]
      simpa [updateContext] using hdyn
    · simp [updateContext]
    · simp at hup
  | ignored hs =>
    by_cases hstart : ctx.currentState = .starting
    · have hlive : ctx.currentState.isLive = true := by rw [hstart]; rfl
      have hevent : event ≠ .update := by
        rintro rfl
        rw [hstart] at hs
        cases hs
      have hdyn := h.dynamic hlive
      rw [if_neg hevent] at hdyn
      refine ⟨h.mode, fun _ => hdyn, h.table, fun _ hup => ?_⟩
      rcases hup with hup | ⟨hup, -⟩ <;> rw [hstart] at hup <;> cases hup
    · refine appliedIn_of_not_live ?_
      revert hs hstart
      cases ctx.currentState <;> cases event <;> simp [isIgnored, FsmState.isLive]
  | abandon hs => exact appliedIn_of_not_live rfl
  | startJob hs =>
    refine h.move (by rw [hs]; rfl) (by simp) ?_ ?_ ?_ ?_ ?_
    · rcases setServiceStatus_event "ready" "restart" o.startJob ctx with he | he <;>
        simp [ActionResult.enter, he]
    all_goals simp [ActionResult.enter]
  | startJobSubmitted hs =>
    exact h.move (by rw [hs]; rfl) (by simp) (by simp) rfl rfl rfl (by simp)
  | startJobDone hs =>
    refine h.move (by rw [hs]; rfl) (by simp) ?_ ?_ ?_ ?_ ?_
    · rcases setResolvConf_event p config o.resolvConf ctx with he | he <;> simp [he]
    all_goals simp
  | startJobFailed hs => exact appliedIn_of_not_live rfl
  | updateRunning hs =>
    have hlive : ctx.currentState.isLive = true := by rw [hs]; rfl
    refine ⟨fun _ => ?_, fun _ => ?_, fun _ => ?_, fun _ hup => ?_⟩
    · simpa [ActionResult.enter, updateContext, setDynamicServers] using h.mode hlive
    · have hne : ((setResolvConf p config o.resolvConf
          (updateContext p config (setDynamicServers ctx))).enter .settingResolvConf).event ≠
          .update := by
        rcases setResolvConf_event p config o.resolvConf
          (updateContext p config (setDynamicServers ctx)) with he | he <;>
          simp [ActionResult.enter, he]
      rw [if_neg hne]
      simpa [ActionResult.enter, updateContext, setDynamicServers] using h.dynamic hlive
    · simp [ActionResult.enter, updateContext, setDynamicServers]
    · simp [ActionResult.enter] at hup
  | resolvConfSet hs =>
    have hconf : ctx.currentState.isConfigured = true := by rw [hs]; rfl
    rcases updateDnsManager_cases p config o.update ctx with
      ⟨result, effects, hupdate, heq⟩ | ⟨effects, event, hevent, -, heq⟩
    · rw [heq]
      obtain ⟨table, htable, hresult, -⟩ := update_done hupdate
      refine h.move hconf (by simp) (by simp [ActionResult.enter]) rfl rfl rfl fun _ => ?_
      exact ⟨rfl, table, o.update.tableOrder, htable, congrArg some hresult⟩
    · rw [heq]
      refine h.move hconf (by simp) ?_ rfl rfl rfl ?_
      · rcases hevent with rfl | rfl <;> simp [ActionResult.enter]
      · rcases hevent with rfl | rfl <;> simp [ActionResult.enter]
  | resolvConfFailed hs => exact appliedIn_of_not_live rfl
  | updated hs =>
    refine h.move (by rw [hs]; rfl) (by simp) (by simp) rfl rfl rfl fun _ => ?_
    exact h.upToDate (by simp) (Or.inr ⟨hs, rfl⟩)
  | updateFailed hs => exact appliedIn_of_not_live rfl
  | stopRunning hs => exact appliedIn_of_not_live rfl
  | stopJob hs => exact appliedIn_of_not_live rfl
  | stopJobSubmitted hs => exact appliedIn_of_not_live rfl
  | quit hs => exact appliedIn_of_not_live (by rw [hs]; rfl)

/-- The invariant as a property of moments. -/
def Applied (p : Platform) (config : Config) (a : Moment) : Prop :=
  AppliedIn p config (lastUpdate a.log).1 (lastUpdate a.log).2 a.ctx a.event ∧ RestsOrProceeds a

/-- An Update is refused only by a daemon that has stopped. -/
lemma not_live_of_refused_update {o : Outcomes} {ctx : Context}
    (hrest : ctx.currentState.isResting = true)
    (h : transitionAction p config o ctx .update = none) : ctx.currentState.isLive = false := by
  revert hrest h
  cases hs : ctx.currentState <;> simp [FsmState.isResting, transitionAction, FsmState.isLive, hs]

/-- The invariant holds when an event has been refused. -/
lemma Applied.refused {o : Outcomes} {ctx : Context} {event : FsmEvent} {log log' : List Effect}
    {answering : Bool} (h : Applied p config ⟨⟨ctx, event, log⟩, answering⟩)
    (hlog : lastUpdate log' = lastUpdate log)
    (hrefused : transitionAction p config o ctx event = none) (code : ExitCode) :
    AppliedIn p config (lastUpdate log').1 (lastUpdate log').2 { ctx with exitCode := code }
      .none := by
  obtain ⟨happ, hrest⟩ := h
  rw [hlog]
  by_cases hevent : event = .update
  · subst hevent
    have hresting : ctx.currentState.isResting = true := by
      refine hrest.resolve_right ?_
      change ¬ isExpected ctx.currentState .update = true
      cases ctx.currentState <;> simp [isExpected]
    have hdead : ctx.currentState.isLive = false := not_live_of_refused_update hresting hrefused
    exact appliedIn_of_not_live hdead
  · refine ⟨happ.mode, fun hlive => ?_, happ.table, fun _ hup => ?_⟩
    · have hdyn := happ.dynamic hlive
      simp only [hevent, if_false] at hdyn
      exact hdyn
    · rcases hup with hup | ⟨-, he⟩
      · exact happ.upToDate hevent (Or.inl hup)
      · cases he

/-- At rest the exit code and the log may change, except for decoded Updates. -/
lemma AppliedIn.atRest {ctx : Context} {log l : List Effect}
    (h : AppliedIn p config (lastUpdate log).1 (lastUpdate log).2 ctx .none)
    (hl : ∀ D m, .updateParsed D m ∉ l) (code : ExitCode) :
    AppliedIn p config (lastUpdate (log ++ l)).1 (lastUpdate (log ++ l)).2
      { ctx with exitCode := code } .none := by
  rw [lastUpdate_append hl]
  exact ⟨h.mode, h.dynamic, h.table, h.upToDate⟩

/-- The invariant is preserved by every small step. -/
lemma Applied.micro {ok : Machine → Prop} {a b : Moment} (h : Applied p config a)
    (hstep : Micro p config ok a b) : Applied p config b := by
  refine ⟨?_, restsOrProceeds_micro h.2 hstep⟩
  cases hstep with
  | edge hok hedge =>
    simp only [hedge.lastUpdate_eq]
    exact h.1.edge hedge
  | receive he hu =>
    refine ⟨h.1.mode, fun hlive => ?_, h.1.table, fun _ hup => ?_⟩
    · have hdyn := h.1.dynamic hlive
      simp only [reduceCtorEq, if_false] at hdyn
      simp only [hu, if_false]
      exact hdyn
    · rcases hup with hup | ⟨-, hsuccess⟩
      · exact h.1.upToDate (by simp) (Or.inl hup)
      · simp only at hsuccess
        rw [hsuccess] at he
        cases he
  | @parsed ctx log servers mode =>
    have hlast : lastUpdate (log ++ [.updateParsed servers mode]) = (servers, mode) := by
      rw [lastUpdate, List.foldl_append]
      rfl
    simp only [hlast]
    exact ⟨fun _ => rfl, fun _ => rfl, h.1.table, fun hne => absurd rfl hne⟩
  | @refused o ctx event log answering hrefused =>
    exact h.refused (lastUpdate_append (by simp)) hrefused .fsmFailure
  | @skipped o ctx event log hrefused =>
    exact h.refused rfl hrefused ctx.exitCode
  | @replied ctx log => exact h.1.atRest (by simp) ctx.exitCode
  | @rejected ctx log error => exact h.1.atRest (by simp) ctx.exitCode
  | @reloadReplied ctx log => exact h.1.atRest (by simp) ctx.exitCode
  | nameLost => exact h.1.atRest (by simp) .dbusFailure

/-- The invariant holds when the daemon starts. -/
lemma applied_initial : Applied p config Daemon.initial.moment := by
  refine ⟨⟨fun _ => rfl, fun _ => rfl, fun h => absurd h (by decide), ?_⟩, Or.inl rfl⟩
  rintro - (h | ⟨-, h⟩) <;> cases h

/-- The invariant holds after every run. -/
lemma applied_run (is : List Input) : Applied p config ((daemon p config).run is).moment :=
  invariant_of_micro_true (fun _ _ h hstep => h.micro hstep) applied_initial is

/-- RUNNING means applied: after every run that leaves the machine in the state RUNNING, the
serials agree, and the table recorded for the cache maps exactly the domains with used servers to
these, where the table of servers is made from the static servers and those of the last Update that
passed parsing, and the mode is the one of that Update. -/
theorem running_means_applied (is : List Input)
    (hrunning : ((daemon p config).run is).ctx.currentState = .running) :
    let d := (daemon p config).run is
    let D := (lastUpdate d.log).1
    let m := (lastUpdate d.log).2
    d.ctx.currentConfigurationSerial = d.ctx.requestedConfigurationSerial ∧
    ∃ H recorded, serverListToHashTable p (config.staticServers ++ D) = some H ∧
      d.ctx.currentUnboundDomainToServers = some recorded ∧
      ∀ domain used, recorded.lookup domain = some used ↔
        ∃ servers, H.lookup domain = some servers ∧ getUsedServers servers m domain = used ∧
          used ≠ [] := by
  intro d D m
  have happ : AppliedIn p config D m d.ctx .none := (applied_run is).1
  have hlive : d.ctx.currentState.isLive = true := by rw [hrunning]; rfl
  obtain ⟨hserial, table, order, htable, hrecorded⟩ := happ.upToDate (by simp) (Or.inl hrunning)
  have hD : d.ctx.currentDynamicServers = D := happ.dynamic hlive
  have hH : d.ctx.currentDomainToServers =
      serverListToHashTable p (config.staticServers ++ d.ctx.currentDynamicServers) :=
    happ.table (by rw [hrunning]; rfl)
  have hmode : d.ctx.resolutionMode = m := happ.mode hlive
  refine ⟨hserial, table, usedServersTable order table d.ctx.resolutionMode, ?_, hrecorded, ?_⟩
  · rw [← hD, ← hH, htable]
  · intro domain used
    rw [usedServersTable, Table.lookup_collect_visit, Option.bind_eq_some_iff, hmode]
    simp only [usedServersOf_eq_some_iff]

/-- A daemon that receives an Update with one server while it is running. -/
theorem running_means_applied_update :
    let is := [Input.ok .nameAcquired, .ok (.jobFinished "done"),
      .ok (.updateCall [[("address", .byteString [192, 0, 2, 1])]] 0)]
    let d := (daemon .plain .plain).run is
    d.ctx.currentState = .running ∧
    d.ctx.currentConfigurationSerial = d.ctx.requestedConfigurationSerial ∧
    ∃ H recorded, serverListToHashTable .plain ([] ++ (lastUpdate d.log).1) = some H ∧
      d.ctx.currentUnboundDomainToServers = some recorded ∧
      ∀ domain used, recorded.lookup domain = some used ↔
        ∃ servers, H.lookup domain = some servers ∧
          getUsedServers servers (lastUpdate d.log).2 domain = used ∧ used ≠ [] :=
  ⟨by decide, running_means_applied _ (by decide)⟩

end Dnsconfd
