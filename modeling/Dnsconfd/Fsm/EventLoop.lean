import Dnsconfd.Fsm.StateTransition

/-!
# The event loop

`state_transition` ends after at most six iterations; whether an event is refused is decided in
the first of them, which then leaves everything as it was, and otherwise the machine comes to
rest in one of five states.
-/

namespace Dnsconfd

open Library

variable {p : Platform} {config : Config} {o : Outcomes}

/-- The states in which the machine waits for the next event from outside. -/
def FsmState.isResting : FsmState → Bool
  | .starting => true
  | .waitingForStartJob => true
  | .running => true
  | .waitingStopJob => true
  | .stopping => true
  | _ => false

/-- The events that come from outside: D-Bus calls, signals and the service's status. -/
def FsmEvent.isExternal : FsmEvent → Bool
  | .update => true
  | .kickoff => true
  | .reload => true
  | .jobSuccess => true
  | .jobFailure => true
  | .stop => true
  | _ => false

/-- The states and events that the actions produce for the next iteration. -/
def isExpected : FsmState → FsmEvent → Bool
  | .configuringDnsManager, .success => true
  | .configuringDnsManager, .failure => true
  | .submittingStartJob, .success => true
  | .submittingStartJob, .failure => true
  | .settingResolvConf, .success => true
  | .settingResolvConf, .failure => true
  | .updatingDnsManager, .success => true
  | .updatingDnsManager, .failure => true
  | .updatingDnsManager, .reload => true
  | .revertingResolvConf, .success => true
  | .revertingResolvConf, .failure => true
  | .submittingStopJob, .success => true
  | .submittingStopJob, .failure => true
  | .stopping, .stop => true
  | _, _ => false

/-- Continuing iterations go down in this rank. -/
def FsmState.rank : FsmState → ℕ
  | .stopping => 0
  | .submittingStopJob => 1
  | .waitingStopJob => 1
  | .submittingStartJob => 1
  | .revertingResolvConf => 2
  | .configuringDnsManager => 2
  | .updatingDnsManager => 3
  | .settingResolvConf => 4
  | .waitingForStartJob => 5
  | .running => 5
  | .starting => 5

/-! ## What actions leave of the context -/

/-- The effective CA after `fsm_starting_event_kickoff`. -/
def caAfterKickoff (p : Platform) (config : Config) (o : KickoffOutcome) (ctx : Context) :
    Option String :=
  if o.monitorCreated && o.confOpens && o.listenWritten then
    (getEffectiveCa o.caOrder o.readable (updateContext p config ctx).currentDomainToServers
      ctx.resolutionMode config).or ctx.effectiveCa
  else ctx.effectiveCa

/-- The backup of resolv.conf after `write_resolv_conf`. -/
def backupAfterWrite (o : ResolvConfOutcome) (ctx : Context) : Option String :=
  ctx.resolvConfBackup.or (o.originalContent.map cString)

/-- A kickoff renews the table of servers and the serial, and it may replace the effective CA. -/
@[simp] lemma fsmStartingEventKickoff_ctx (p : Platform) (config : Config) (o : KickoffOutcome)
    (ctx : Context) :
    (fsmStartingEventKickoff p config o ctx).ctx =
      { updateContext p config ctx with effectiveCa := caAfterKickoff p config o ctx } := by
  unfold fsmStartingEventKickoff caAfterKickoff
  cases o.monitorCreated with
  | false => rfl
  | true =>
    simp only [Bool.not_true, Bool.false_eq_true, if_false, Bool.true_and]
    unfold writeConfiguration
    cases o.confOpens with
    | false => rfl
    | true =>
      cases o.listenWritten with
      | false => rfl
      | true =>
        have hmode : (updateContext p config ctx).resolutionMode = ctx.resolutionMode := rfl
        simp only [Bool.not_true, Bool.false_eq_true, if_false, Bool.and_self, if_true, hmode]
        cases getEffectiveCa o.caOrder o.readable (updateContext p config ctx).currentDomainToServers
          ctx.resolutionMode config with
        | none => rfl
        | some ca =>
          dsimp only
          split_ifs <;> rfl

@[simp] lemma setServiceStatus_ctx (expectedStatus command : String) (o : ServiceOutcome)
    (ctx : Context) :
    (setServiceStatus expectedStatus command o ctx).ctx =
      { ctx with expectedStatus := some expectedStatus } := by
  unfold setServiceStatus
  dsimp only
  split_ifs <;> rfl

/-- Writing resolv.conf changes the backup at most. -/
@[simp] lemma setResolvConf_ctx (p : Platform) (config : Config) (o : ResolvConfOutcome)
    (ctx : Context) :
    (setResolvConf p config o ctx).ctx =
      { ctx with resolvConfBackup := backupAfterWrite o ctx } := by
  have hfile : ∀ ctx, (writeResolvConfFile p config o ctx).ctx = ctx := by
    intro ctx
    unfold writeResolvConfFile
    split
    · rfl
    · split
      · rfl
      · split_ifs <;> rfl
  unfold setResolvConf writeResolvConf backupAfterWrite
  cases hb : ctx.resolvConfBackup with
  | some b =>
    simp only [hfile, Option.some_or]
    rw [← hb]
  | none =>
    cases o.originalContent with
    | none =>
      simp only [Option.none_or, Option.map_none]
      rw [← hb]
    | some c => simp only [hfile, Option.none_or, Option.map_some]

@[simp] lemma revertResolvConf_ctx (o : RevertOutcome) (ctx : Context) :
    (revertResolvConf o ctx).ctx = ctx := by
  unfold revertResolvConf
  split
  · rfl
  · split
    · rfl
    · split_ifs <;> rfl

/-- Only the exit code is set. -/
lemma setExitCode_eq (code : ExitCode) (ctx : Context) :
    setExitCode code ctx =
      { ctx with exitCode := if ctx.exitCode = .ok then code else ctx.exitCode } := by
  unfold setExitCode
  split_ifs <;> rfl

/-! ## The effects of actions -/

/-- `write_configuration` succeeds with the file written and the effective CA stored, or it fails
without having written the file. -/
lemma writeConfiguration_cases (p : Platform) (config : Config) (o : KickoffOutcome)
    (ctx : Context) :
    (∃ ca, getEffectiveCa o.caOrder o.readable ctx.currentDomainToServers ctx.resolutionMode
        config = some ca ∧
      writeConfiguration p config o ctx = ⟨none, { ctx with effectiveCa := some ca },
        [.confWritten (confLines p config o ctx ca)]⟩) ∨
    ((writeConfiguration p config o ctx).error.isSome = true ∧
      (writeConfiguration p config o ctx).effects = []) := by
  unfold writeConfiguration
  by_cases hopen : o.confOpens = true
  · by_cases hlisten : o.listenWritten = true
    · simp only [hopen, hlisten, Bool.not_true, Bool.false_eq_true, if_false]
      cases hca : getEffectiveCa o.caOrder o.readable ctx.currentDomainToServers
          ctx.resolutionMode config with
      | none => exact Or.inr ⟨rfl, rfl⟩
      | some ca =>
        dsimp only
        split
        · exact Or.inr ⟨rfl, rfl⟩
        · split
          · exact Or.inr ⟨rfl, rfl⟩
          · split
            · exact Or.inr ⟨rfl, rfl⟩
            · split
              · exact Or.inr ⟨rfl, rfl⟩
              · exact Or.inl ⟨ca, rfl, rfl⟩
    · exact Or.inr (by simp [hopen, hlisten])
  · exact Or.inr (by simp [hopen])

/-- A kickoff watches the status file and writes the configuration of the cache; it has written
the configuration exactly if it succeeds. -/
lemma fsmStartingEventKickoff_cases (p : Platform) (config : Config) (o : KickoffOutcome)
    (ctx : Context) :
    (∃ ca, (fsmStartingEventKickoff p config o ctx).event = .success ∧
      (fsmStartingEventKickoff p config o ctx).effects = [.monitorCreated,
        .confWritten (confLines p config o (updateContext p config ctx) ca)]) ∨
    ((fsmStartingEventKickoff p config o ctx).event = .failure ∧
      ∀ e ∈ (fsmStartingEventKickoff p config o ctx).effects, e = .monitorCreated) := by
  unfold fsmStartingEventKickoff
  cases o.monitorCreated with
  | false => exact Or.inr ⟨rfl, by simp⟩
  | true =>
    rcases writeConfiguration_cases p config o (updateContext p config ctx) with
      ⟨ca, -, h⟩ | ⟨herror, heffects⟩
    · exact Or.inl ⟨ca, by simp [h], by simp [h]⟩
    · exact Or.inr ⟨by simp [herror], by simp [heffects]⟩

/-- The service is controlled through its two files. -/
lemma mem_setServiceStatus_effects {expectedStatus command : String} {o : ServiceOutcome}
    {ctx : Context} {e : Effect} (he : e ∈ (setServiceStatus expectedStatus command o ctx).effects) :
    e = .statusWritten "pending" ∨ e = .controlWritten command := by
  unfold setServiceStatus at he
  dsimp only at he
  split_ifs at he <;> simp_all

/-- Writing resolv.conf has no other effects, and notes a table that is not set. -/
lemma mem_setResolvConf_effects {o : ResolvConfOutcome} {ctx : Context} {e : Effect}
    (he : e ∈ (setResolvConf p config o ctx).effects) :
    e = .resolvConfOpened ∨ (∃ text, e = .resolvConfWritten text) ∨
      (e = .nullUse .domainTable ∧ ctx.currentDomainToServers = none) := by
  have hfile : ∀ ctx, e ∈ (writeResolvConfFile p config o ctx).effects →
      e = .resolvConfOpened ∨ (∃ text, e = .resolvConfWritten text) ∨
        (e = .nullUse .domainTable ∧ ctx.currentDomainToServers = none) := by
    intro ctx he
    unfold writeResolvConfFile at he
    split at he
    · cases he
    · split at he
      · rename_i htable
        simp only [List.mem_cons, List.not_mem_nil, or_false] at he
        exact he.imp_right fun h => Or.inr ⟨h, htable⟩
      · split_ifs at he
        all_goals
          simp only [List.mem_cons, List.not_mem_nil, or_false] at he
          grind
  unfold setResolvConf writeResolvConf at he
  dsimp only at he
  split at he
  · exact hfile _ he
  · split at he
    · simp at he
    · have h := hfile _ he
      exact h

/-- resolv.conf is opened only once its content is kept, and writing it succeeds only if it was
opened. -/
lemma setResolvConf_opened (p : Platform) (config : Config) (o : ResolvConfOutcome)
    (ctx : Context) :
    (.resolvConfOpened ∈ (setResolvConf p config o ctx).effects →
      (backupAfterWrite o ctx).isSome = true) ∧
    ((setResolvConf p config o ctx).event = .success →
      .resolvConfOpened ∈ (setResolvConf p config o ctx).effects) := by
  have hfile : ∀ ctx, (writeResolvConfFile p config o ctx).error = none →
      .resolvConfOpened ∈ (writeResolvConfFile p config o ctx).effects := by
    intro ctx herror
    unfold writeResolvConfFile at herror ⊢
    split
    · rename_i hopen
      simp [hopen] at herror
    · split
      · simp
      · split_ifs <;> simp
  unfold setResolvConf writeResolvConf backupAfterWrite
  dsimp only
  split
  · rename_i backup hbackup
    refine ⟨fun _ => by simp [hbackup], fun hevent => hfile _ ?_⟩
    simpa using hevent
  · split
    · simp
    · rename_i content hcontent
      refine ⟨fun _ => by simp [hcontent], fun hevent => hfile _ ?_⟩
      simpa using hevent

/-- Reverting resolv.conf is noted first; what is restored is the backup, and a backup that is not
set is noted. -/
lemma revertResolvConf_effects (o : RevertOutcome) (ctx : Context) :
    ∃ rest, (revertResolvConf o ctx).effects = .revertExecuted :: rest ∧
      ∀ e ∈ rest, (∃ text, e = .resolvConfRestored text ∧ ctx.resolvConfBackup = some text) ∨
        (e = .nullUse .resolvConfBackup ∧ ctx.resolvConfBackup = none) := by
  unfold revertResolvConf
  split
  · exact ⟨[], rfl, by simp⟩
  · split
    · rename_i hbackup
      exact ⟨_, rfl, by simp [hbackup]⟩
    · rename_i backup hbackup
      split_ifs
      · exact ⟨_, rfl, by simp [hbackup]⟩
      · exact ⟨[], rfl, by simp⟩

/-- Commands are executed until one of them fails. -/
lemma mem_executeCommands {commandOk : UnboundCommand → Bool} {commands : List UnboundCommand}
    {e : Effect} (he : e ∈ (executeCommands commandOk commands).2) :
    ∃ command ∈ commands, ∃ ok, e = .commandExecuted command ok := by
  induction commands with
  | nil => simp [executeCommands] at he
  | cons command commands ih =>
    unfold executeCommands at he
    split_ifs at he
    · rcases List.mem_cons.mp he with rfl | he
      · exact ⟨command, List.mem_cons_self, true, rfl⟩
      · obtain ⟨c, hc, hok⟩ := ih he
        exact ⟨c, List.mem_cons_of_mem command hc, hok⟩
    · rw [List.mem_singleton] at he
      exact ⟨command, List.mem_cons_self, false, he⟩

/-- The loops of `update` only execute commands. -/
lemma mem_applyUpdate_effects {o : UpdateOutcome} {old : Option ServerTable} {new : ServerTable}
    {e : Effect} (he : e ∈ (applyUpdate p o old new).2) :
    ∃ command ∈ addCommands p o.addOrder old new ++ removeCommands o.removeOrder old new,
      ∃ ok, e = .commandExecuted command ok := by
  have hadds : e ∈ (executeCommands o.commandOk (addCommands p o.addOrder old new)).2 ∨
      e ∈ (executeCommands o.commandOk (removeCommands o.removeOrder old new)).2 := by
    unfold applyUpdate at he
    dsimp only at he
    split_ifs at he
    · exact Or.inl he
    · exact List.mem_append.mp he
    · exact List.mem_append.mp he
  rcases hadds with he | he
  · obtain ⟨command, hmem, hok⟩ := mem_executeCommands he
    exact ⟨command, List.mem_append_left _ hmem, hok⟩
  · obtain ⟨command, hmem, hok⟩ := mem_executeCommands he
    exact ⟨command, List.mem_append_right _ hmem, hok⟩

/-- `update` only executes commands, and notes what it finds unset. -/
lemma mem_update_effects {o : UpdateOutcome} {ctx : Context} {e : Effect}
    (he : e ∈ (update p config o ctx).2) :
    (∃ command ok, e = .commandExecuted command ok) ∨
      (e = .nullUse .domainTable ∧ ctx.currentDomainToServers = none) ∨
      (e = .nullUse .effectiveCa ∧ ctx.effectiveCa = none) := by
  unfold update at he
  split at he
  · rename_i htable
    exact Or.inr (Or.inl ⟨List.mem_singleton.mp he, htable⟩)
  · dsimp only at he
    split at he
    · cases he
    · split at he
      · rename_i hca
        exact Or.inr (Or.inr ⟨List.mem_singleton.mp he, hca⟩)
      · split_ifs at he
        · cases he
        · obtain ⟨command, -, ok, rfl⟩ := mem_applyUpdate_effects he
          exact Or.inl ⟨command, ok, rfl⟩

/-- `update_dns_manager` records the table and the serial if `update` returns 0, and otherwise only
passes on why it did not. -/
lemma updateDnsManager_cases (p : Platform) (config : Config) (o : UpdateOutcome) (ctx : Context) :
    (∃ result effects, update p config o ctx = (.done result, effects) ∧
      updateDnsManager p config o ctx =
        ⟨{ ctx with
            currentUnboundDomainToServers := some result
            currentConfigurationSerial := ctx.requestedConfigurationSerial },
          effects ++ [.updateSucceeded ctx.currentDynamicServers, .notified "READY=1\n",
            .serialSignal ctx.requestedConfigurationSerial], .success⟩) ∨
    (∃ effects event, (event = .failure ∨ event = .reload) ∧ effects = (update p config o ctx).2 ∧
      updateDnsManager p config o ctx = ⟨ctx, effects, event⟩) := by
  unfold updateDnsManager
  split
  · rename_i result effects heq
    exact Or.inl ⟨result, effects, heq, rfl⟩
  · rename_i effects heq
    exact Or.inr ⟨effects, .reload, Or.inr rfl, by rw [heq], rfl⟩
  · rename_i error effects heq
    exact Or.inr ⟨effects, .failure, Or.inl rfl, by rw [heq], rfl⟩

/-! ## The events that actions yield -/

/-- A kickoff succeeds or fails. -/
lemma fsmStartingEventKickoff_event (p : Platform) (config : Config) (o : KickoffOutcome)
    (ctx : Context) :
    (fsmStartingEventKickoff p config o ctx).event = .success ∨
      (fsmStartingEventKickoff p config o ctx).event = .failure := by
  rcases fsmStartingEventKickoff_cases p config o ctx with ⟨_, h, -⟩ | ⟨h, -⟩
  · exact Or.inl h
  · exact Or.inr h

/-- Writing the service's files succeeds or fails. -/
lemma setServiceStatus_event (expectedStatus command : String) (o : ServiceOutcome)
    (ctx : Context) :
    (setServiceStatus expectedStatus command o ctx).event = .success ∨
      (setServiceStatus expectedStatus command o ctx).event = .failure := by
  unfold setServiceStatus
  dsimp only
  split
  · exact Or.inr rfl
  · split
    · exact Or.inr rfl
    · exact Or.inl rfl

/-- Writing resolv.conf succeeds or fails. -/
lemma setResolvConf_event (p : Platform) (config : Config) (o : ResolvConfOutcome)
    (ctx : Context) :
    (setResolvConf p config o ctx).event = .success ∨
      (setResolvConf p config o ctx).event = .failure := by
  unfold setResolvConf
  dsimp only
  split
  · exact Or.inr rfl
  · exact Or.inl rfl

/-- Updating the cache succeeds, fails or asks for a reload. -/
lemma updateDnsManager_event (p : Platform) (config : Config) (o : UpdateOutcome)
    (ctx : Context) :
    (updateDnsManager p config o ctx).event = .success ∨
      (updateDnsManager p config o ctx).event = .failure ∨
        (updateDnsManager p config o ctx).event = .reload := by
  rcases updateDnsManager_cases p config o ctx with ⟨_, _, -, h⟩ | ⟨_, _, hevent, -, h⟩
  · rw [h]
    exact Or.inl rfl
  · rw [h]
    exact Or.inr hevent

/-- Reverting resolv.conf succeeds or fails. -/
lemma revertResolvConf_event (o : RevertOutcome) (ctx : Context) :
    (revertResolvConf o ctx).event = .success ∨ (revertResolvConf o ctx).event = .failure := by
  unfold revertResolvConf
  split
  · exact Or.inr rfl
  · split
    · exact Or.inr rfl
    · split
      · exact Or.inl rfl
      · exact Or.inr rfl

/-! ## One iteration -/

/-- After an accepted event the machine rests, or its next event is one that the next iteration
handles. -/
lemma Edge.rests_or_expected {ctx : Context} {event : FsmEvent} {r : ActionResult}
    (h : Edge p config o ctx event r) :
    (r.event = .none ∧ r.ctx.currentState.isResting = true) ∨
      isExpected r.ctx.currentState r.event = true := by
  cases h with
  | refresh hs =>
    refine Or.inl ⟨rfl, ?_⟩
    rcases hs with hs | hs <;> simp [updateContext, setDynamicServers, hs, FsmState.isResting]
  | kickoff hs hn =>
    rcases fsmStartingEventKickoff_event p config o.kickoff ctx with h | h <;>
      exact Or.inr (by simp only [h]; rfl)
  | ignored hs =>
    refine Or.inl ⟨rfl, ?_⟩
    revert hs
    cases ctx.currentState <;> cases event <;> simp [isIgnored, FsmState.isResting]
  | abandon hs => exact Or.inr rfl
  | startJob hs =>
    rcases setServiceStatus_event "ready" "restart" o.startJob ctx with h | h <;>
      exact Or.inr (by simp only [ActionResult.enter, h]; rfl)
  | startJobSubmitted hs => exact Or.inl ⟨rfl, rfl⟩
  | startJobDone hs =>
    rcases setResolvConf_event p config o.resolvConf ctx with h | h <;>
      exact Or.inr (by simp only [h]; rfl)
  | startJobFailed hs => exact Or.inr rfl
  | updateRunning hs =>
    rcases setResolvConf_event p config o.resolvConf
      (updateContext p config (setDynamicServers ctx)) with h | h <;>
      exact Or.inr (by simp only [ActionResult.enter, h]; rfl)
  | resolvConfSet hs =>
    rcases updateDnsManager_event p config o.update ctx with h | h | h <;>
      exact Or.inr (by simp only [ActionResult.enter, h]; rfl)
  | resolvConfFailed hs =>
    rcases setServiceStatus_event "stopped" "stop" o.stopJob (setExitCode .resolvConfFailure ctx)
      with h | h <;>
      exact Or.inr (by simp only [ActionResult.enter, submitStopJob, h]; rfl)
  | updated hs => exact Or.inl ⟨rfl, rfl⟩
  | updateFailed hs =>
    rcases revertResolvConf_event o.revert (setExitCode .updateFailure ctx) with h | h <;>
      exact Or.inr (by simp only [ActionResult.enter, h]; rfl)
  | stopRunning hs =>
    rcases revertResolvConf_event o.revert ctx with h | h <;>
      exact Or.inr (by simp only [ActionResult.enter, h]; rfl)
  | stopJob hs =>
    rcases setServiceStatus_event "stopped" "stop" o.stopJob ctx with h | h <;>
      exact Or.inr (by simp only [ActionResult.enter, submitStopJob, h]; rfl)
  | stopJobSubmitted hs => exact Or.inl ⟨rfl, rfl⟩
  | quit hs => exact Or.inl ⟨rfl, by rw [hs]; rfl⟩

/-- The events that actions produce are accepted. -/
lemma transitionAction_ne_none_of_isExpected {ctx : Context} {event : FsmEvent}
    (h : isExpected ctx.currentState event = true) :
    transitionAction p config o ctx event ≠ none := by
  revert h
  cases hs : ctx.currentState <;> cases event <;> simp [isExpected, transitionAction, hs]

/-- An iteration that yields a further event goes down in rank. -/
lemma Edge.rank_lt {ctx : Context} {event : FsmEvent} {r : ActionResult}
    (h : Edge p config o ctx event r) (hr : r.event ≠ .none) :
    r.ctx.currentState.rank < ctx.currentState.rank := by
  cases h with
  | refresh hs => exact absurd rfl hr
  | kickoff hs hn =>
    revert hs
    cases ctx.currentState <;> cases event <;> simp [isKickoff, FsmState.rank]
  | ignored hs => exact absurd rfl hr
  | abandon hs =>
    revert hs
    cases ctx.currentState <;> cases event <;> simp [isAbandon, FsmState.rank]
  | stopJob hs =>
    revert hs
    cases ctx.currentState <;> cases event <;>
      simp [isStopJob, FsmState.rank, ActionResult.enter]
  | startJobSubmitted hs => exact absurd rfl hr
  | updated hs => exact absurd rfl hr
  | stopJobSubmitted hs => exact absurd rfl hr
  | quit hs => exact absurd rfl hr
  | startJob hs | startJobDone hs | startJobFailed hs | updateRunning hs | resolvConfSet hs
  | resolvConfFailed hs | updateFailed hs | stopRunning hs =>
    rw [hs]
    simp [ActionResult.enter, FsmState.rank]

/-! ## The whole loop -/

/-- An iteration is the edge it takes. -/
lemma edge_of_transition {m m' : Machine} (h : transition p config o m = some m') :
    ∃ r, Edge p config o m.ctx m.event r ∧
      m' = ⟨r.ctx, r.event,
        m.log ++ .transitionMade m.ctx.currentState m.event :: r.effects⟩ := by
  rw [transition, Option.map_eq_some_iff] at h
  obtain ⟨r, hr, rfl⟩ := h
  exact ⟨r, edge_of_transitionAction hr, rfl⟩

/-- Six iterations are enough, from any state and with any outcomes. -/
theorem stateTransitionLoop_isSome (p : Platform) (config : Config) (o : Outcomes) (m : Machine) :
    (stateTransitionLoop p config o maxIterations m).isSome = true := by
  refine doWhile_isSome (fun m => m.ctx.currentState.rank) ?_ maxIterations m ?_
  · intro s s' hs ha
    obtain ⟨r, hedge, rfl⟩ := edge_of_transition hs
    exact hedge.rank_lt (by simpa [Machine.hasEvent] using ha)
  · cases m.ctx.currentState <;> decide

/-- The loop ends with the result of `state_transition`. -/
lemma stateTransitionLoop_eq (p : Platform) (config : Config) (o : Outcomes) (ctx : Context)
    (event : FsmEvent) (log : List Effect) :
    stateTransitionLoop p config o maxIterations ⟨ctx, event, log⟩ =
      some (stateTransition p config o ctx event log) := by
  obtain ⟨r, hr⟩ := Option.isSome_iff_exists.mp
    (stateTransitionLoop_isSome p config o ⟨ctx, event, log⟩)
  rw [stateTransition, hr]
  rfl

/-- An accepted event leaves the machine at rest. -/
theorem stateTransition_rests {ctx : Context} {event : FsmEvent} {log : List Effect}
    (h : (stateTransition p config o ctx event log).accepted = true) :
    (stateTransition p config o ctx event log).state.event = .none ∧
      (stateTransition p config o ctx event log).state.ctx.currentState.isResting = true := by
  obtain ⟨hno, m, hm⟩ := doWhile_last (stateTransitionLoop_eq p config o ctx event log) h
  obtain ⟨r, hedge, hr⟩ := edge_of_transition hm
  have hevent : (stateTransition p config o ctx event log).state.event = .none := by
    simpa [Machine.hasEvent] using hno
  refine ⟨hevent, ?_⟩
  rcases hedge.rests_or_expected with ⟨-, hrest⟩ | hexp
  · rw [hr]
    exact hrest
  · rw [hr] at hevent
    rw [show r.event = .none from hevent] at hexp
    exact absurd hexp (by cases r.ctx.currentState <;> decide)

/-- A refused event is refused at once and leaves everything as it was. -/
theorem stateTransition_unchanged {ctx : Context} {event : FsmEvent} {log : List Effect}
    (h : (stateTransition p config o ctx event log).accepted = false) :
    transitionAction p config o ctx event = none ∧
      (stateTransition p config o ctx event log).state = ⟨ctx, event, log⟩ := by
  have hdue : ∀ m m', transition p config o m = some m' → m'.hasEvent = true →
      transition p config o m' ≠ none := by
    intro m m' hm ha
    obtain ⟨r, hedge, rfl⟩ := edge_of_transition hm
    rcases hedge.rests_or_expected with ⟨hnone, -⟩ | hexp
    · simp [Machine.hasEvent, hnone] at ha
    · rw [transition, ne_eq, Option.map_eq_none_iff]
      exact transitionAction_ne_none_of_isExpected hexp
  obtain ⟨hbody, hstate⟩ := doWhile_refused hdue (stateTransitionLoop_eq p config o ctx event log) h
  rw [transition, Option.map_eq_none_iff] at hbody
  exact ⟨hbody, hstate⟩

/-- **Loop rule.**  What every edge preserves is preserved by `state_transition`. -/
theorem stateTransition_invariant {J : Machine → Prop}
    (hedge : ∀ ctx event log r, J ⟨ctx, event, log⟩ → Edge p config o ctx event r →
      J ⟨r.ctx, r.event, log ++ .transitionMade ctx.currentState event :: r.effects⟩)
    {ctx : Context} {event : FsmEvent} {log : List Effect} (h : J ⟨ctx, event, log⟩) :
    J (stateTransition p config o ctx event log).state := by
  refine doWhile_related (R := fun m m' => J m → J m') (fun _ => id)
    (fun _ _ _ h₁ h₂ => h₂ ∘ h₁) ?_ maxIterations ⟨ctx, event, log⟩ _
    (loopMeets_of_forall (fun _ => trivial : ∀ _, True) _ _)
    (stateTransitionLoop_eq p config o ctx event log) h
  intro m m' _ hm hJ
  obtain ⟨r, hr, rfl⟩ := edge_of_transition hm
  exact hedge m.ctx m.event m.log r hJ hr

/-- No action yields an Update. -/
lemma Edge.event_ne_update {ctx : Context} {event : FsmEvent} {r : ActionResult}
    (h : Edge p config o ctx event r) : r.event ≠ .update := by
  intro hr
  rcases h.rests_or_expected with ⟨hnone, -⟩ | hexp
  · rw [hnone] at hr
    cases hr
  · rw [hr] at hexp
    revert hexp
    cases r.ctx.currentState <;> decide

/-- Once `update` has succeeded, the machine is running. -/
lemma Edge.eq_of_updated {ctx : Context} {r : ActionResult} (h : Edge p config o ctx .success r)
    (hs : ctx.currentState = .updatingDnsManager) :
    r = ⟨{ ctx with currentState := .running }, [], .none⟩ := by
  cases h with
  | updated _ => rfl
  | kickoff h | ignored h | abandon h | stopJob h => rw [hs] at h; cases h
  | startJob h | startJobSubmitted h | resolvConfSet h | stopJobSubmitted h =>
    rw [hs] at h; cases h

/-- The states in which the daemon has stopped or waits for the cache to stop are never left for
any other. -/
lemma Edge.isStopped {ctx : Context} {event : FsmEvent} {r : ActionResult}
    (h : Edge p config o ctx event r)
    (hs : ctx.currentState = .waitingStopJob ∨ ctx.currentState = .stopping) :
    r.ctx.currentState = .waitingStopJob ∨ r.ctx.currentState = .stopping := by
  cases h with
  | ignored _ => exact hs
  | abandon _ => exact Or.inr rfl
  | quit h => exact Or.inr h
  | refresh h => rcases hs with hs | hs <;> rw [hs] at h <;> simp at h
  | kickoff h | stopJob h => rcases hs with hs | hs <;> rw [hs] at h <;> cases h
  | startJob h | startJobSubmitted h | startJobDone h | startJobFailed h | updateRunning h
  | resolvConfSet h | resolvConfFailed h | updated h | updateFailed h | stopRunning h
  | stopJobSubmitted h => rcases hs with hs | hs <;> rw [hs] at h <;> cases h

end Dnsconfd
