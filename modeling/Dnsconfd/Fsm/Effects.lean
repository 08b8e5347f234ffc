import Dnsconfd.Fsm.EventLoop

/-!
# Which iteration has which effects

Every effect of an action belongs to a few states and events.  `Effect.isOf` lists them, and
`Edge.isOf` shows that no iteration has an effect of another one; properties of the log that concern
one kind of effect then only look at the iterations that have it.
-/

namespace Dnsconfd

variable {p : Platform} {config : Config} {o : Outcomes}

/-- The iterations that write resolv.conf. -/
def isWrite : FsmState → FsmEvent → Bool
  | .waitingForStartJob, .jobSuccess => true
  | .running, .update => true
  | _, _ => false

/-- The iterations that revert resolv.conf. -/
def isRevert : FsmState → FsmEvent → Bool
  | .updatingDnsManager, .failure => true
  | .running, .stop => true
  | _, _ => false

/-- The iteration that updates the running cache. -/
def isApply : FsmState → FsmEvent → Bool
  | .settingResolvConf, .success => true
  | _, _ => false

/-- The iteration that submits the start job. -/
def isStartJob : FsmState → FsmEvent → Bool
  | .configuringDnsManager, .success => true
  | _, _ => false

/-- The iterations that submit the stop job. -/
def isAnyStopJob (state : FsmState) (event : FsmEvent) : Bool :=
  isStopJob state event || (state = .settingResolvConf && event = .failure)

/-- The iterations whose action may have an effect. -/
def Effect.isOf (state : FsmState) (event : FsmEvent) : Effect → Bool
  | .monitorCreated => isKickoff state event
  | .confWritten _ => isKickoff state event
  | .statusWritten content =>
    content = "pending" && (isStartJob state event || isAnyStopJob state event)
  | .controlWritten command =>
    (command = "restart" && isStartJob state event) ||
      (command = "stop" && isAnyStopJob state event)
  | .startJobDone => state = .waitingForStartJob && event = .jobSuccess
  | .resolvConfOpened => isWrite state event
  | .resolvConfWritten _ => isWrite state event
  | .revertExecuted => isRevert state event
  | .resolvConfRestored _ => isRevert state event
  | .commandExecuted _ _ => isApply state event
  | .updateSucceeded _ => isApply state event
  | .serialSignal _ => isApply state event
  | .notified _ => isKickoff state event || isApply state event
  | .mainLoopQuit => state = .stopping
  | .nullUse _ => isWrite state event || isRevert state event || isApply state event
  | .transitionMade _ _ => false
  | .updateParsed _ _ => false
  | .updateReplied _ _ => false
  | .reloadReplied _ => false

/-- Effects of writing the service's files. -/
lemma isOf_setServiceStatus {expectedStatus command : String} {o : ServiceOutcome} {ctx : Context}
    {state : FsmState} {event : FsmEvent} {e : Effect}
    (h : (command = "restart" ∧ isStartJob state event = true) ∨
      (command = "stop" ∧ isAnyStopJob state event = true))
    (he : e ∈ (setServiceStatus expectedStatus command o ctx).effects) :
    e.isOf state event = true := by
  rcases mem_setServiceStatus_effects he with rfl | rfl
  · rcases h with ⟨-, h⟩ | ⟨-, h⟩ <;> simp [Effect.isOf, h]
  · rcases h with ⟨hc, h⟩ | ⟨hc, h⟩ <;> simp [Effect.isOf, hc, h]

lemma isOf_setResolvConf {o : ResolvConfOutcome} {ctx : Context} {state : FsmState}
    {event : FsmEvent} {e : Effect} (h : isWrite state event = true)
    (he : e ∈ (setResolvConf p config o ctx).effects) : e.isOf state event = true := by
  rcases mem_setResolvConf_effects he with rfl | ⟨text, rfl⟩ | ⟨rfl, -⟩ <;> simp [Effect.isOf, h]

lemma isOf_revertResolvConf {o : RevertOutcome} {ctx : Context} {state : FsmState}
    {event : FsmEvent} {e : Effect} (h : isRevert state event = true)
    (he : e ∈ (revertResolvConf o ctx).effects) : e.isOf state event = true := by
  obtain ⟨rest, heffects, hrest⟩ := revertResolvConf_effects o ctx
  rw [heffects] at he
  rcases List.mem_cons.mp he with rfl | he
  · exact h
  · rcases hrest e he with ⟨text, rfl, -⟩ | ⟨rfl, -⟩ <;> simp [Effect.isOf, h]

lemma isOf_updateDnsManager {o : UpdateOutcome} {ctx : Context} {state : FsmState}
    {event : FsmEvent} {e : Effect} (h : isApply state event = true)
    (he : e ∈ (updateDnsManager p config o ctx).effects) : e.isOf state event = true := by
  have hupdate : e ∈ (update p config o ctx).2 → e.isOf state event = true := by
    intro he
    rcases mem_update_effects he with ⟨command, ok, rfl⟩ | ⟨rfl, -⟩ | ⟨rfl, -⟩ <;>
      simp [Effect.isOf, h]
  rcases updateDnsManager_cases p config o ctx with ⟨_, effects, hdone, hr⟩ | ⟨_, _, -, rfl, hr⟩
  · rw [hr] at he
    rcases List.mem_append.mp he with he | he
    · exact hupdate (by rw [hdone]; exact he)
    · simp only [List.mem_cons, List.not_mem_nil, or_false] at he
      rcases he with rfl | rfl | rfl <;> simp [Effect.isOf, h]
  · rw [hr] at he
    exact hupdate he

lemma isOf_fsmStartingEventKickoff {o : KickoffOutcome} {ctx : Context} {state : FsmState}
    {event : FsmEvent} {e : Effect} (h : isKickoff state event = true)
    (he : e ∈ (fsmStartingEventKickoff p config o ctx).effects) : e.isOf state event = true := by
  rcases fsmStartingEventKickoff_cases p config o ctx with ⟨ca, -, heq⟩ | ⟨-, hall⟩
  · rw [heq] at he
    simp only [List.mem_cons, List.not_mem_nil, or_false] at he
    rcases he with rfl | rfl <;> exact h
  · rw [hall e he]
    exact h

/-- Every iteration has effects of its own only. -/
theorem Edge.isOf {ctx : Context} {event : FsmEvent} {r : ActionResult}
    (hedge : Edge p config o ctx event r) {e : Effect} (he : e ∈ r.effects) :
    e.isOf ctx.currentState event = true := by
  cases hedge with
  | kickoff hs hn =>
    rcases List.mem_append.mp he with he | he
    · rcases hn with rfl | rfl
      · cases he
      · rw [List.mem_singleton.mp he]
        simp [Effect.isOf, hs]
    · exact isOf_fsmStartingEventKickoff hs he
  | startJob hs => exact isOf_setServiceStatus (Or.inl ⟨rfl, by rw [hs]; rfl⟩) he
  | startJobDone hs =>
    rcases List.mem_cons.mp he with rfl | he
    · simp [Effect.isOf, hs]
    · exact isOf_setResolvConf (by rw [hs]; rfl) he
  | updateRunning hs => exact isOf_setResolvConf (by rw [hs]; rfl) he
  | resolvConfSet hs => exact isOf_updateDnsManager (by rw [hs]; rfl) he
  | resolvConfFailed hs =>
    exact isOf_setServiceStatus (Or.inr ⟨rfl, by rw [hs]; rfl⟩) he
  | updateFailed hs => exact isOf_revertResolvConf (by rw [hs]; rfl) he
  | stopRunning hs => exact isOf_revertResolvConf (by rw [hs]; rfl) he
  | stopJob hs =>
    exact isOf_setServiceStatus (Or.inr ⟨rfl, by rw [isAnyStopJob, hs]; rfl⟩) he
  | quit hs =>
    rw [List.mem_singleton.mp he]
    simp [Effect.isOf, hs]
  | refresh | ignored | abandon | startJobSubmitted | startJobFailed | updated
  | stopJobSubmitted => cases he

/-! ## The edges of one kind -/

/-- The state and event of an edge that is no kickoff. -/
lemma Edge.kickoff_or {ctx : Context} {event : FsmEvent} {r : ActionResult}
    (hedge : Edge p config o ctx event r) :
    (∃ n, (n = [] ∨ n = [.notified "RELOADING=1\n"]) ∧
      r = ⟨{ (fsmStartingEventKickoff p config o.kickoff ctx).ctx with
              currentState := .configuringDnsManager },
            n ++ (fsmStartingEventKickoff p config o.kickoff ctx).effects,
            (fsmStartingEventKickoff p config o.kickoff ctx).event⟩) ∨
      isKickoff ctx.currentState event = false := by
  cases hedge with
  | kickoff hs hn => exact Or.inl ⟨_, hn, rfl⟩
  | refresh hs => rcases hs with hs | hs <;> exact Or.inr (by rw [hs]; rfl)
  | ignored hs | abandon hs | stopJob hs =>
    refine Or.inr ?_
    revert hs
    cases ctx.currentState <;> cases event <;> simp [isIgnored, isAbandon, isStopJob, isKickoff]
  | startJob hs | startJobSubmitted hs | startJobDone hs | startJobFailed hs | updateRunning hs
  | resolvConfSet hs | resolvConfFailed hs | updated hs | updateFailed hs | stopRunning hs
  | stopJobSubmitted hs | quit hs => exact Or.inr (by rw [hs]; rfl)

/-- The edges that write resolv.conf. -/
lemma Edge.write_or {ctx : Context} {event : FsmEvent} {r : ActionResult}
    (hedge : Edge p config o ctx event r) :
    (∃ ctx' n, ctx'.resolvConfBackup = ctx.resolvConfBackup ∧ (n = [] ∨ n = [.startJobDone]) ∧
      r = ⟨{ (setResolvConf p config o.resolvConf ctx').ctx with
              currentState := .settingResolvConf },
            n ++ (setResolvConf p config o.resolvConf ctx').effects,
            (setResolvConf p config o.resolvConf ctx').event⟩) ∨
      isWrite ctx.currentState event = false := by
  cases hedge with
  | startJobDone hs => exact Or.inl ⟨ctx, [.startJobDone], rfl, Or.inr rfl, rfl⟩
  | updateRunning hs =>
    exact Or.inl ⟨updateContext p config (setDynamicServers ctx), [], rfl, Or.inl rfl, rfl⟩
  | refresh hs => rcases hs with hs | hs <;> exact Or.inr (by rw [hs]; rfl)
  | kickoff hs | ignored hs | abandon hs | stopJob hs =>
    refine Or.inr ?_
    revert hs
    cases ctx.currentState <;> cases event <;>
      simp [isKickoff, isIgnored, isAbandon, isStopJob, isWrite]
  | startJob hs | startJobSubmitted hs | startJobFailed hs | resolvConfSet hs
  | resolvConfFailed hs | updated hs | updateFailed hs | stopRunning hs | stopJobSubmitted hs
  | quit hs => exact Or.inr (by rw [hs]; rfl)

end Dnsconfd
