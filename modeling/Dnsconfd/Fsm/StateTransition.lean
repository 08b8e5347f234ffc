import Dnsconfd.UnboundManager.Operations
import Dnsconfd.Library.TransitionSystem

/-!
# The state machine

`state_transition` and its actions.  One iteration of its loop is `transition`: the nested
switches choose an action by state and event, the action changes the context, has effects and
yields the next event.  The loop goes on while there is an event.
-/

namespace Dnsconfd

open Library

/-! ## Actions -/

/-- What an action leaves: the context, its effects and the event for the next iteration. -/
structure ActionResult where
  ctx : Context
  effects : List Effect
  event : FsmEvent

/-- The same result in another state. -/
def ActionResult.enter (r : ActionResult) (state : FsmState) : ActionResult :=
  { r with ctx := { r.ctx with currentState := state } }

/-- The increment of the configuration serial, which skips zero. -/
def nextSerial (serial : UInt32) : UInt32 :=
  serial + (1 + (if serial + 1 = 0 then 1 else 0))

/-- `set_dynamic_servers`. -/
def setDynamicServers (ctx : Context) : Context :=
  { ctx with currentDynamicServers := ctx.newDynamicServers, newDynamicServers := [] }

/-- `update_context`. -/
def updateContext (p : Platform) (config : Config) (ctx : Context) : Context :=
  let allServers := config.staticServers ++ ctx.currentDynamicServers
  { ctx with
    allServers := allServers
    currentDomainToServers := serverListToHashTable p allServers
    requestedConfigurationSerial := nextSerial ctx.requestedConfigurationSerial }

/-- `fsm_starting_event_kickoff`. -/
def fsmStartingEventKickoff (p : Platform) (config : Config) (o : KickoffOutcome)
    (ctx : Context) : ActionResult :=
  let ctx := updateContext p config ctx
  if !o.monitorCreated then ⟨ctx, [], .failure⟩
  else
    let r := writeConfiguration p config o ctx
    ⟨r.ctx, .monitorCreated :: r.effects, if r.error.isSome then .failure else .success⟩

/-- `set_service_status`, followed by the choice of the event for its result. -/
def setServiceStatus (expectedStatus command : String) (o : ServiceOutcome) (ctx : Context) :
    ActionResult :=
  let ctx := { ctx with expectedStatus := some expectedStatus }
  if !o.statusWritten then ⟨ctx, [], .failure⟩
  else if !o.controlWritten then ⟨ctx, [.statusWritten "pending"], .failure⟩
  else ⟨ctx, [.statusWritten "pending", .controlWritten command], .success⟩

/-- `fsm_configuring_dns_manager_event_success`. -/
def fsmConfiguringDnsManagerEventSuccess (o : ServiceOutcome) (ctx : Context) : ActionResult :=
  setServiceStatus "ready" "restart" o ctx

/-- `submit_stop_job`. -/
def submitStopJob (o : ServiceOutcome) (ctx : Context) : ActionResult :=
  setServiceStatus "stopped" "stop" o ctx

/-- `set_resolv_conf`. -/
def setResolvConf (p : Platform) (config : Config) (o : ResolvConfOutcome) (ctx : Context) :
    ActionResult :=
  let r := writeResolvConf p config o ctx
  ⟨r.ctx, r.effects, if r.error.isSome then .failure else .success⟩

/-- `update_dns_manager`. -/
def updateDnsManager (p : Platform) (config : Config) (o : UpdateOutcome) (ctx : Context) :
    ActionResult :=
  match update p config o ctx with
  | (.done result, effects) =>
    ⟨{ ctx with
        currentUnboundDomainToServers := some result
        currentConfigurationSerial := ctx.requestedConfigurationSerial },
      effects ++ [.updateSucceeded ctx.currentDynamicServers, .notified "READY=1\n",
        .serialSignal ctx.requestedConfigurationSerial], .success⟩
  | (.reload, effects) => ⟨ctx, effects, .reload⟩
  | (.error _, effects) => ⟨ctx, effects, .failure⟩

/-- `revert_resolv_conf`. -/
def revertResolvConf (o : RevertOutcome) (ctx : Context) : ActionResult :=
  if !o.opens then ⟨ctx, [.revertExecuted], .failure⟩
  else
    match ctx.resolvConfBackup with
    | none => ⟨ctx, [.revertExecuted, .nullUse .resolvConfBackup], .failure⟩
    | some backup =>
      if o.printed && o.closes then ⟨ctx, [.revertExecuted, .resolvConfRestored backup], .success⟩
      else ⟨ctx, [.revertExecuted], .failure⟩

/-- `set_exit_code`: the first code stays. -/
def setExitCode (code : ExitCode) (ctx : Context) : Context :=
  if ctx.exitCode = .ok then { ctx with exitCode := code } else ctx

/-- Tell systemd that the daemon is reloading, before an action. -/
def notifyReloading (r : ActionResult) : ActionResult :=
  { r with effects := .notified "RELOADING=1\n" :: r.effects }

/-! ## Transitions -/

/-- The nested switches of `state_transition`: the action for a state and an event, or `none` where
the code returns -1. -/
def transitionAction (p : Platform) (config : Config) (o : Outcomes) (ctx : Context)
    (event : FsmEvent) : Option ActionResult :=
  match ctx.currentState, event with
  | .starting, .update => some ⟨updateContext p config (setDynamicServers ctx), [], .none⟩
  | .starting, .kickoff =>
    some ((fsmStartingEventKickoff p config o.kickoff ctx).enter .configuringDnsManager)
  | .starting, .reload => some ⟨ctx, [], .none⟩
  | .starting, .stop => some ((⟨ctx, [], .stop⟩ : ActionResult).enter .stopping)
  | .configuringDnsManager, .success =>
    some ((fsmConfiguringDnsManagerEventSuccess o.startJob ctx).enter .submittingStartJob)
  | .configuringDnsManager, .failure =>
    some ((⟨ctx, [], .stop⟩ : ActionResult).enter .stopping)
  | .submittingStartJob, .success =>
    some ((⟨ctx, [], .none⟩ : ActionResult).enter .waitingForStartJob)
  | .submittingStartJob, .failure => some ((⟨ctx, [], .stop⟩ : ActionResult).enter .stopping)
  | .waitingForStartJob, .jobSuccess =>
    let r := (setResolvConf p config o.resolvConf ctx).enter .settingResolvConf
    some { r with effects := .startJobDone :: r.effects }
  | .waitingForStartJob, .jobFailure =>
    some ((⟨setExitCode .serviceFailure ctx, [], .stop⟩ : ActionResult).enter .stopping)
  | .waitingForStartJob, .update =>
    some ⟨updateContext p config (setDynamicServers ctx), [], .none⟩
  | .waitingForStartJob, .reload =>
    some ((fsmStartingEventKickoff p config o.kickoff ctx).enter .configuringDnsManager)
  | .waitingForStartJob, .stop => some ((submitStopJob o.stopJob ctx).enter .submittingStopJob)
  | .settingResolvConf, .success =>
    some ((updateDnsManager p config o.update ctx).enter .updatingDnsManager)
  | .settingResolvConf, .failure =>
    some ((submitStopJob o.stopJob (setExitCode .resolvConfFailure ctx)).enter .submittingStopJob)
  | .updatingDnsManager, .success => some ((⟨ctx, [], .none⟩ : ActionResult).enter .running)
  | .updatingDnsManager, .failure =>
    some ((revertResolvConf o.revert (setExitCode .updateFailure ctx)).enter .revertingResolvConf)
  | .updatingDnsManager, .reload =>
    some (notifyReloading
      ((fsmStartingEventKickoff p config o.kickoff ctx).enter .configuringDnsManager))
  | .running, .update =>
    some ((setResolvConf p config o.resolvConf
      (updateContext p config (setDynamicServers ctx))).enter .settingResolvConf)
  | .running, .reload =>
    some (notifyReloading
      ((fsmStartingEventKickoff p config o.kickoff ctx).enter .configuringDnsManager))
  | .running, .stop => some ((revertResolvConf o.revert ctx).enter .revertingResolvConf)
  | .revertingResolvConf, .failure => some ((submitStopJob o.stopJob ctx).enter .submittingStopJob)
  | .revertingResolvConf, .success => some ((submitStopJob o.stopJob ctx).enter .submittingStopJob)
  | .submittingStopJob, .success => some ((⟨ctx, [], .none⟩ : ActionResult).enter .waitingStopJob)
  | .submittingStopJob, .failure => some ((⟨ctx, [], .stop⟩ : ActionResult).enter .stopping)
  | .waitingStopJob, .jobFailure => some ((⟨ctx, [], .stop⟩ : ActionResult).enter .stopping)
  | .waitingStopJob, .jobSuccess => some ((⟨ctx, [], .stop⟩ : ActionResult).enter .stopping)
  | .waitingStopJob, .update => some ⟨ctx, [], .none⟩
  | .waitingStopJob, .reload => some ⟨ctx, [], .none⟩
  | .waitingStopJob, .stop => some ⟨ctx, [], .none⟩
  | .stopping, .stop => some ⟨ctx, [.mainLoopQuit], .none⟩
  | _, _ => none

/-- The machine between two iterations: the context, the event at hand and the log so far. -/
structure Machine where
  ctx : Context
  event : FsmEvent
  log : List Effect

/-- One iteration of the loop of `state_transition`. -/
def transition (p : Platform) (config : Config) (o : Outcomes) (m : Machine) : Option Machine :=
  (transitionAction p config o m.ctx m.event).map fun r =>
    ⟨r.ctx, r.event,
      m.log ++ .transitionMade m.ctx.currentState m.event :: r.effects⟩

/-- The test of the loop: there is an event. -/
def Machine.hasEvent (m : Machine) : Bool :=
  m.event ≠ .none

/-- The loop of `state_transition`, cut off after `n` iterations. -/
def stateTransitionLoop (p : Platform) (config : Config) (o : Outcomes) (n : ℕ) (m : Machine) :
    Option (Halt Machine) :=
  doWhile (transition p config o) Machine.hasEvent n m

/-- As many iterations as the loop ever makes. -/
def maxIterations : ℕ := 6

/-- `state_transition`: whether it returns 0, the context and the log it leaves.  The loop is never
cut off (`stateTransitionLoop_isSome`), so the default is never used. -/
def stateTransition (p : Platform) (config : Config) (o : Outcomes) (ctx : Context)
    (event : FsmEvent) (log : List Effect) : Halt Machine :=
  (stateTransitionLoop p config o maxIterations ⟨ctx, event, log⟩).getD ⟨false, ⟨ctx, event, log⟩⟩

/-! ## What one iteration can do -/

/-- The states and events on which the cache is configured anew and restarted. -/
def isKickoff : FsmState → FsmEvent → Bool
  | .starting, .kickoff => true
  | .waitingForStartJob, .reload => true
  | .updatingDnsManager, .reload => true
  | .running, .reload => true
  | _, _ => false

/-- The states and events on which the machine stops without any further action. -/
def isAbandon : FsmState → FsmEvent → Bool
  | .starting, .stop => true
  | .configuringDnsManager, .failure => true
  | .submittingStartJob, .failure => true
  | .submittingStopJob, .failure => true
  | .waitingStopJob, .jobFailure => true
  | .waitingStopJob, .jobSuccess => true
  | _, _ => false

/-- The states and events that change nothing. -/
def isIgnored : FsmState → FsmEvent → Bool
  | .starting, .reload => true
  | .waitingStopJob, .update => true
  | .waitingStopJob, .reload => true
  | .waitingStopJob, .stop => true
  | _, _ => false

/-- The states and events on which the stop job is submitted and nothing else happens. -/
def isStopJob : FsmState → FsmEvent → Bool
  | .waitingForStartJob, .stop => true
  | .revertingResolvConf, .failure => true
  | .revertingResolvConf, .success => true
  | _, _ => false

/-- The edges of the machine, grouped by what they do: `Edge p config o ctx event r` says that in
the context `ctx` the event `event` is accepted with the result `r`. -/
inductive Edge (p : Platform) (config : Config) (o : Outcomes) (ctx : Context) :
    FsmEvent → ActionResult → Prop where
  | refresh (hs : ctx.currentState = .starting ∨ ctx.currentState = .waitingForStartJob) :
      Edge p config o ctx .update ⟨updateContext p config (setDynamicServers ctx), [], .none⟩
  | kickoff {event : FsmEvent} {n : List Effect}
      (hs : isKickoff ctx.currentState event = true)
      (hn : n = [] ∨ n = [.notified "RELOADING=1\n"]) :
      Edge p config o ctx event
        ⟨{ (fsmStartingEventKickoff p config o.kickoff ctx).ctx with
            currentState := .configuringDnsManager },
          n ++ (fsmStartingEventKickoff p config o.kickoff ctx).effects,
          (fsmStartingEventKickoff p config o.kickoff ctx).event⟩
  | ignored {event : FsmEvent} (hs : isIgnored ctx.currentState event = true) :
      Edge p config o ctx event ⟨ctx, [], .none⟩
  | abandon {event : FsmEvent} (hs : isAbandon ctx.currentState event = true) :
      Edge p config o ctx event ⟨{ ctx with currentState := .stopping }, [], .stop⟩
  | startJob (hs : ctx.currentState = .configuringDnsManager) :
      Edge p config o ctx .success
        ((setServiceStatus "ready" "restart" o.startJob ctx).enter .submittingStartJob)
  | startJobSubmitted (hs : ctx.currentState = .submittingStartJob) :
      Edge p config o ctx .success
        ⟨{ ctx with currentState := .waitingForStartJob }, [], .none⟩
  | startJobDone (hs : ctx.currentState = .waitingForStartJob) :
      Edge p config o ctx .jobSuccess
        ⟨{ (setResolvConf p config o.resolvConf ctx).ctx with currentState := .settingResolvConf },
          .startJobDone :: (setResolvConf p config o.resolvConf ctx).effects,
          (setResolvConf p config o.resolvConf ctx).event⟩
  | startJobFailed (hs : ctx.currentState = .waitingForStartJob) :
      Edge p config o ctx .jobFailure
        ⟨{ setExitCode .serviceFailure ctx with currentState := .stopping }, [], .stop⟩
  | updateRunning (hs : ctx.currentState = .running) :
      Edge p config o ctx .update
        ((setResolvConf p config o.resolvConf
          (updateContext p config (setDynamicServers ctx))).enter .settingResolvConf)
  | resolvConfSet (hs : ctx.currentState = .settingResolvConf) :
      Edge p config o ctx .success
        ((updateDnsManager p config o.update ctx).enter .updatingDnsManager)
  | resolvConfFailed (hs : ctx.currentState = .settingResolvConf) :
      Edge p config o ctx .failure
        ((submitStopJob o.stopJob (setExitCode .resolvConfFailure ctx)).enter .submittingStopJob)
  | updated (hs : ctx.currentState = .updatingDnsManager) :
      Edge p config o ctx .success ⟨{ ctx with currentState := .running }, [], .none⟩
  | updateFailed (hs : ctx.currentState = .updatingDnsManager) :
      Edge p config o ctx .failure
        ((revertResolvConf o.revert (setExitCode .updateFailure ctx)).enter .revertingResolvConf)
  | stopRunning (hs : ctx.currentState = .running) :
      Edge p config o ctx .stop ((revertResolvConf o.revert ctx).enter .revertingResolvConf)
  | stopJob {event : FsmEvent} (hs : isStopJob ctx.currentState event = true) :
      Edge p config o ctx event ((submitStopJob o.stopJob ctx).enter .submittingStopJob)
  | stopJobSubmitted (hs : ctx.currentState = .submittingStopJob) :
      Edge p config o ctx .success ⟨{ ctx with currentState := .waitingStopJob }, [], .none⟩
  | quit (hs : ctx.currentState = .stopping) :
      Edge p config o ctx .stop ⟨ctx, [.mainLoopQuit], .none⟩

/-- Every accepted event takes one of the edges. -/
theorem edge_of_transitionAction {p : Platform} {config : Config} {o : Outcomes} {ctx : Context}
    {event : FsmEvent} {r : ActionResult}
    (h : transitionAction p config o ctx event = some r) : Edge p config o ctx event r := by
  cases hs : ctx.currentState <;> cases event <;>
    simp only [transitionAction, hs, reduceCtorEq, Option.some.injEq] at h <;> subst h
  case starting.update => exact .refresh (Or.inl hs)
  case starting.kickoff => exact .kickoff (n := []) (by rw [hs]; rfl) (Or.inl rfl)
  case starting.reload => exact .ignored (by rw [hs]; rfl)
  case starting.stop => exact .abandon (by rw [hs]; rfl)
  case configuringDnsManager.success => exact .startJob hs
  case configuringDnsManager.failure => exact .abandon (by rw [hs]; rfl)
  case submittingStartJob.success => exact .startJobSubmitted hs
  case submittingStartJob.failure => exact .abandon (by rw [hs]; rfl)
  case waitingForStartJob.update => exact .refresh (Or.inr hs)
  case waitingForStartJob.reload =>
    exact .kickoff (n := []) (by rw [hs]; rfl) (Or.inl rfl)
  case waitingForStartJob.jobSuccess => exact .startJobDone hs
  case waitingForStartJob.jobFailure => exact .startJobFailed hs
  case waitingForStartJob.stop => exact .stopJob (by rw [hs]; rfl)
  case settingResolvConf.success => exact .resolvConfSet hs
  case settingResolvConf.failure => exact .resolvConfFailed hs
  case updatingDnsManager.success => exact .updated hs
  case updatingDnsManager.failure => exact .updateFailed hs
  case updatingDnsManager.reload => exact .kickoff (by rw [hs]; rfl) (Or.inr rfl)
  case running.update => exact .updateRunning hs
  case running.reload => exact .kickoff (by rw [hs]; rfl) (Or.inr rfl)
  case running.stop => exact .stopRunning hs
  case revertingResolvConf.success => exact .stopJob (by rw [hs]; rfl)
  case revertingResolvConf.failure => exact .stopJob (by rw [hs]; rfl)
  case submittingStopJob.success => exact .stopJobSubmitted hs
  case submittingStopJob.failure => exact .abandon (by rw [hs]; rfl)
  case waitingStopJob.update => exact .ignored (by rw [hs]; rfl)
  case waitingStopJob.reload => exact .ignored (by rw [hs]; rfl)
  case waitingStopJob.jobSuccess => exact .abandon (by rw [hs]; rfl)
  case waitingStopJob.jobFailure => exact .abandon (by rw [hs]; rfl)
  case waitingStopJob.stop => exact .ignored (by rw [hs]; rfl)
  case stopping.stop => exact .quit hs

/-- The state that an event leads to, whatever comes of the action; none if the event is refused. -/
def nextState : FsmState → FsmEvent → Option FsmState
  | .starting, .update => some .starting
  | .starting, .kickoff => some .configuringDnsManager
  | .starting, .reload => some .starting
  | .starting, .stop => some .stopping
  | .configuringDnsManager, .success => some .submittingStartJob
  | .configuringDnsManager, .failure => some .stopping
  | .submittingStartJob, .success => some .waitingForStartJob
  | .submittingStartJob, .failure => some .stopping
  | .waitingForStartJob, .jobSuccess => some .settingResolvConf
  | .waitingForStartJob, .jobFailure => some .stopping
  | .waitingForStartJob, .update => some .waitingForStartJob
  | .waitingForStartJob, .reload => some .configuringDnsManager
  | .waitingForStartJob, .stop => some .submittingStopJob
  | .settingResolvConf, .success => some .updatingDnsManager
  | .settingResolvConf, .failure => some .submittingStopJob
  | .updatingDnsManager, .success => some .running
  | .updatingDnsManager, .failure => some .revertingResolvConf
  | .updatingDnsManager, .reload => some .configuringDnsManager
  | .running, .update => some .settingResolvConf
  | .running, .reload => some .configuringDnsManager
  | .running, .stop => some .revertingResolvConf
  | .revertingResolvConf, .failure => some .submittingStopJob
  | .revertingResolvConf, .success => some .submittingStopJob
  | .submittingStopJob, .success => some .waitingStopJob
  | .submittingStopJob, .failure => some .stopping
  | .waitingStopJob, .jobFailure => some .stopping
  | .waitingStopJob, .jobSuccess => some .stopping
  | .waitingStopJob, .update => some .waitingStopJob
  | .waitingStopJob, .reload => some .waitingStopJob
  | .waitingStopJob, .stop => some .waitingStopJob
  | .stopping, .stop => some .stopping
  | _, _ => none

/-- Facts about the states before and after an iteration are facts about this table. -/
lemma Edge.nextState_eq {p : Platform} {config : Config} {o : Outcomes} {ctx : Context}
    {event : FsmEvent} {r : ActionResult} (hedge : Edge p config o ctx event r) :
    nextState ctx.currentState event = some r.ctx.currentState := by
  cases hedge with
  | refresh hs => rcases hs with hs | hs <;> simp [nextState, updateContext, setDynamicServers, hs]
  | kickoff hs | ignored hs | abandon hs | stopJob hs =>
    revert hs
    cases ctx.currentState <;> cases event <;>
      simp [isKickoff, isIgnored, isAbandon, isStopJob, nextState, ActionResult.enter]
  | startJob hs | startJobSubmitted hs | startJobDone hs | startJobFailed hs | updateRunning hs
  | resolvConfSet hs | resolvConfFailed hs | updated hs | updateFailed hs | stopRunning hs
  | stopJobSubmitted hs | quit hs => simp [nextState, hs, ActionResult.enter]

end Dnsconfd
