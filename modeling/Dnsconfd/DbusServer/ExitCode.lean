import Dnsconfd.DbusServer.Daemon
import Dnsconfd.Fsm.Effects

/-!
# The exit code

A failure on the way to STOPPING is to be recorded in the exit code, where the first one stays
(`set_exit_code`), and exit code 0 is to mean that the daemon was told to stop.  Failures and
requests are read off the log, which has every iteration of `state_transition` with its state and
event.

Of the five kinds of failures that lead to STOPPING two are not recorded: a kickoff that fails and a
start job that can not be submitted (`isUnrecorded`); the daemon then ends with exit code 0.  A run
that ends in STOPPING has the right exit code exactly if no such failure happens in it
(`exitCode_right_iff`).
-/

namespace Dnsconfd

open Library

variable {p : Platform} {config : Config}

/-! ## Failures and requests in the log -/

/-- The exit status that is documented for a failure which leads towards the stop. -/
def failureStatus : FsmState → FsmEvent → Option ℕ
  | .configuringDnsManager, .failure => some 11
  | .submittingStartJob, .failure => some 8
  | .waitingForStartJob, .jobFailure => some 8
  | .settingResolvConf, .failure => some 10
  | .updatingDnsManager, .failure => some 16
  | _, _ => none

/-- The failures after which the code does not set the exit code. -/
def isUnrecorded : FsmState → FsmEvent → Bool
  | .configuringDnsManager, .failure => true
  | .submittingStartJob, .failure => true
  | _, _ => false

/-- The states in which a request to stop is followed. -/
def isStopRequest : FsmState → FsmEvent → Bool
  | .starting, .stop => true
  | .waitingForStartJob, .stop => true
  | .running, .stop => true
  | _, _ => false

/-- The failure that an effect is the start of. -/
def Effect.failure : Effect → Option ℕ
  | .transitionMade state event => failureStatus state event
  | _ => none

/-- The failure that an effect is the start of, if it is recorded. -/
def Effect.recordedFailure : Effect → Option ℕ
  | .transitionMade state event =>
    if isUnrecorded state event then none else failureStatus state event
  | _ => none

/-- The statuses of the failures, in order. -/
def failures (log : List Effect) : List ℕ :=
  log.filterMap Effect.failure

/-- The statuses of the recorded failures, in order. -/
def recordedFailures (log : List Effect) : List ℕ :=
  log.filterMap Effect.recordedFailure

/-- A failure that is not recorded has happened. -/
def UnrecordedFailure (log : List Effect) : Prop :=
  ∃ state event, .transitionMade state event ∈ log ∧ isUnrecorded state event = true

/-- A request to stop has been followed. -/
def StopRequested (log : List Effect) : Prop :=
  ∃ state event, .transitionMade state event ∈ log ∧ isStopRequest state event = true

/-- The exit code is that of the first failure, and 0 only if a stop was requested. -/
def ExitCodeRight (d : Daemon) : Prop :=
  d.ctx.exitCode.toNat = (failures d.log).head?.getD 0 ∧
    (d.ctx.exitCode = .ok → StopRequested d.log)

/-- Without an unrecorded failure all failures are recorded. -/
lemma failures_eq {log : List Effect} (h : ¬ UnrecordedFailure log) :
    failures log = recordedFailures log := by
  refine List.filterMap_congr fun e he => ?_
  cases e with
  | transitionMade state event =>
    have hrecorded : isUnrecorded state event = false := by
      rw [← Bool.not_eq_true]
      exact fun hun => h ⟨state, event, he, hun⟩
    simp [Effect.failure, Effect.recordedFailure, hrecorded]
  | _ => rfl

/-- No documented status of a failure is 0. -/
lemma ne_zero_of_mem_failures {log : List Effect} {status : ℕ} (h : status ∈ failures log) :
    status ≠ 0 := by
  obtain ⟨e, -, he⟩ := List.mem_filterMap.mp h
  cases e with
  | transitionMade state event =>
    simp only [Effect.failure] at he
    revert he
    cases state <;> cases event <;> simp [failureStatus] <;> omega
  | _ => cases he

lemma failures_ne_nil {log : List Effect} (h : UnrecordedFailure log) : failures log ≠ [] := by
  obtain ⟨state, event, hmem, hun⟩ := h
  obtain ⟨status, hstatus⟩ : ∃ status, failureStatus state event = some status := by
    revert hun
    cases state <;> cases event <;> simp [isUnrecorded, failureStatus]
  exact List.ne_nil_of_mem (List.mem_filterMap.mpr ⟨_, hmem, hstatus⟩)

/-! ## What an iteration adds -/

/-- An iteration adds the failure that it is the start of. -/
lemma Edge.filterMap_append {o : Outcomes} {ctx : Context} {event : FsmEvent} {r : ActionResult}
    (hedge : Edge p config o ctx event r) {f : Effect → Option ℕ}
    (hf : ∀ e, (∀ state event, e ≠ .transitionMade state event) → f e = none)
    (log : List Effect) :
    (log ++ .transitionMade ctx.currentState event :: r.effects).filterMap f =
      log.filterMap f ++ (f (.transitionMade ctx.currentState event)).toList := by
  have hnone : r.effects.filterMap f = [] := by
    rw [List.filterMap_eq_nil_iff]
    intro e he
    apply hf
    rintro state event' rfl
    exact absurd (hedge.isOf he) (by simp [Effect.isOf])
  rw [List.filterMap_append, List.filterMap_cons, hnone]
  cases f (.transitionMade ctx.currentState event) <;> rfl

/-- Other effects are no failures. -/
lemma failure_eq_none {e : Effect} (h : ∀ state event, e ≠ .transitionMade state event) :
    e.failure = none ∧ e.recordedFailure = none := by
  cases e with
  | transitionMade state event => exact absurd rfl (h state event)
  | _ => exact ⟨rfl, rfl⟩

/-- The exit code after an iteration: a recorded failure sets it if it is not set. -/
lemma Edge.exitCode {o : Outcomes} {ctx : Context} {event : FsmEvent} {r : ActionResult}
    (hedge : Edge p config o ctx event r) :
    r.ctx.exitCode.toNat =
      if ctx.exitCode = .ok then
        (Effect.transitionMade ctx.currentState event).recordedFailure.getD 0
      else ctx.exitCode.toNat := by
  have hsame : ∀ code : ExitCode,
      (Effect.transitionMade ctx.currentState event).recordedFailure = none →
      code = ctx.exitCode → code.toNat = if ctx.exitCode = .ok then
        (Effect.transitionMade ctx.currentState event).recordedFailure.getD 0
      else ctx.exitCode.toNat := by
    rintro code hnone rfl
    split
    · rename_i hok
      rw [hnone, hok]
      rfl
    · rfl
  have hset : ∀ code : ExitCode,
      (Effect.transitionMade ctx.currentState event).recordedFailure = some code.toNat →
      (setExitCode code ctx).exitCode.toNat = if ctx.exitCode = .ok then
        (Effect.transitionMade ctx.currentState event).recordedFailure.getD 0
      else ctx.exitCode.toNat := by
    intro code hsome
    rw [setExitCode_eq, hsome]
    dsimp only
    split <;> rfl
  cases hedge with
  | startJobFailed hs => exact hset .serviceFailure (by rw [hs]; rfl)
  | resolvConfFailed hs =>
    rw [ActionResult.enter, submitStopJob, setServiceStatus_ctx]
    exact hset .resolvConfFailure (by rw [hs]; rfl)
  | updateFailed hs =>
    rw [ActionResult.enter, revertResolvConf_ctx]
    exact hset .updateFailure (by rw [hs]; rfl)
  | resolvConfSet hs =>
    refine hsame _ (by rw [hs]; rfl) ?_
    rcases updateDnsManager_cases p config o.update ctx with ⟨_, _, -, hr⟩ | ⟨_, _, -, -, hr⟩ <;>
      rw [hr] <;> rfl
  | refresh hs => exact hsame _ (by rcases hs with hs | hs <;> rw [hs] <;> rfl) rfl
  | kickoff hs hn =>
    refine hsame _ ?_ (by simp [updateContext])
    revert hs
    cases ctx.currentState <;> cases event <;>
      simp [isKickoff, Effect.recordedFailure, failureStatus]
  | ignored hs | abandon hs | stopJob hs =>
    refine hsame _ ?_ (by simp [ActionResult.enter, submitStopJob])
    revert hs
    cases ctx.currentState <;> cases event <;>
      simp [isIgnored, isAbandon, isStopJob, Effect.recordedFailure, failureStatus, isUnrecorded]
  | startJob hs | startJobSubmitted hs | startJobDone hs | updateRunning hs | updated hs
  | stopRunning hs | stopJobSubmitted hs | quit hs =>
    exact hsame _ (by rw [hs]; rfl) (by
      simp [ActionResult.enter, updateContext, setDynamicServers])

/-- The states on the way to the stop. -/
def FsmState.isEnding : FsmState → Bool
  | .revertingResolvConf => true
  | .submittingStopJob => true
  | .waitingStopJob => true
  | .stopping => true
  | _ => false

/-- The way to the stop is entered by a failure or a request only, every failure enters it, and it
is not left. -/
lemma isEnding_nextState {state next : FsmState} {event : FsmEvent}
    (h : nextState state event = some next) :
    next.isEnding = true ↔ state.isEnding = true ∨
      (failureStatus state event).isSome = true ∨ isStopRequest state event = true := by
  cases state <;> cases event <;> cases h <;> decide

/-- STOPPING is not left, and a failure that is not recorded leads there at once. -/
lemma eq_stopping_of_nextState {state next : FsmState} {event : FsmEvent}
    (h : nextState state event = some next)
    (hstate : state = .stopping ∨ isUnrecorded state event = true) : next = .stopping := by
  revert hstate
  cases state <;> cases event <;> cases h <;> decide

/-- On the way to the stop there are no further failures of the kinds that lead there. -/
lemma failureStatus_of_isEnding {state : FsmState} (h : state.isEnding = true) (event : FsmEvent) :
    failureStatus state event = none ∧ isUnrecorded state event = false := by
  revert h
  cases state <;> cases event <;> simp [FsmState.isEnding, failureStatus, isUnrecorded]

/-! ## The invariant -/

/-- What the log tells about the exit code and the state. -/
structure Tracks (ctx : Context) (log : List Effect) : Prop where
  exitCode : ctx.exitCode.toNat = (recordedFailures log).head?.getD 0
  ending : ctx.currentState.isEnding = true → failures log ≠ [] ∨ StopRequested log
  recorded : recordedFailures log ≠ [] → ctx.currentState.isEnding = true
  unrecorded : UnrecordedFailure log → ctx.currentState = .stopping ∧ recordedFailures log = []

/-- The exit code is 0 exactly as long as no failure has been recorded. -/
lemma Tracks.exitCode_eq_ok_iff {ctx : Context} {log : List Effect} (h : Tracks ctx log) :
    ctx.exitCode = .ok ↔ recordedFailures log = [] := by
  have htoNat : ctx.exitCode = .ok ↔ ctx.exitCode.toNat = 0 := by
    cases ctx.exitCode <;> simp [ExitCode.toNat]
  rw [htoNat, h.exitCode]
  cases hrecorded : recordedFailures log with
  | nil => simp
  | cons status rest =>
    have hmem : status ∈ failures log := by
      have hfirst : status ∈ recordedFailures log := by simp [hrecorded]
      obtain ⟨e, he, hstatus⟩ := List.mem_filterMap.mp hfirst
      refine List.mem_filterMap.mpr ⟨e, he, ?_⟩
      cases e with
      | transitionMade state event =>
        simp only [Effect.recordedFailure] at hstatus
        split at hstatus
        · cases hstatus
        · exact hstatus
      | _ => cases hstatus
    simpa using ne_zero_of_mem_failures hmem

/-- Every iteration preserves the invariant. -/
lemma Tracks.edge {o : Outcomes} {ctx : Context} {event : FsmEvent} {log : List Effect}
    {r : ActionResult} (h : Tracks ctx log) (hedge : Edge p config o ctx event r) :
    Tracks r.ctx (log ++ .transitionMade ctx.currentState event :: r.effects) := by
  have hfailures := hedge.filterMap_append (f := Effect.failure)
    (fun _ h => (failure_eq_none h).1) log
  have hrecorded := hedge.filterMap_append (f := Effect.recordedFailure)
    (fun _ h => (failure_eq_none h).2) log
  change failures (log ++ _) = failures log ++ (failureStatus ctx.currentState event).toList
    at hfailures
  change recordedFailures (log ++ _) = recordedFailures log ++ _ at hrecorded
  have hmem : .transitionMade ctx.currentState event ∈
      log ++ .transitionMade ctx.currentState event :: r.effects := by simp
  refine ⟨?_, ?_, ?_, ?_⟩
  · rw [hedge.exitCode, hrecorded]
    split
    · rename_i hok
      rw [h.exitCode_eq_ok_iff.mp hok, List.nil_append]
      cases (Effect.transitionMade ctx.currentState event).recordedFailure <;> rfl
    · rename_i hset
      rw [h.exitCode_eq_ok_iff] at hset
      rw [h.exitCode, List.head?_append_of_ne_nil _ hset]
  · intro hr
    rw [hfailures]
    rcases (isEnding_nextState hedge.nextState_eq).mp hr with hbefore | hfailure | hrequest
    · rcases h.ending hbefore with hne | ⟨state, event', hlog, hreq⟩
      · exact Or.inl (by simp [hne])
      · exact Or.inr ⟨state, event', List.mem_append_left _ hlog, hreq⟩
    · obtain ⟨status, hstatus⟩ := Option.isSome_iff_exists.mp hfailure
      exact Or.inl (by simp [hstatus])
    · exact Or.inr ⟨_, _, hmem, hrequest⟩
  · intro hne
    rw [isEnding_nextState hedge.nextState_eq]
    by_cases hbefore : recordedFailures log = []
    · refine Or.inr (Or.inl ?_)
      rw [hrecorded, hbefore, List.nil_append] at hne
      simp only [Effect.recordedFailure] at hne
      split at hne
      · exact absurd rfl hne
      · cases hstatus : failureStatus ctx.currentState event with
        | none => simp [hstatus] at hne
        | some status => rfl
    · exact Or.inl (h.recorded hbefore)
  · rintro ⟨state, event', hlog, hun⟩
    rw [hrecorded]
    rcases List.mem_append.mp hlog with hlog | hlog
    · obtain ⟨hstopping, hnil⟩ := h.unrecorded ⟨state, event', hlog, hun⟩
      have hending : ctx.currentState.isEnding = true := by rw [hstopping]; rfl
      have hnone := failureStatus_of_isEnding hending event
      refine ⟨eq_stopping_of_nextState hedge.nextState_eq (Or.inl hstopping), ?_⟩
      simp [hnil, Effect.recordedFailure, hnone.1]
    · rcases List.mem_cons.mp hlog with heq | hlog
      · obtain ⟨rfl, rfl⟩ := Effect.transitionMade.inj heq
        refine ⟨eq_stopping_of_nextState hedge.nextState_eq (Or.inr hun), ?_⟩
        have hnil : recordedFailures log = [] := by
          by_contra hne
          have hfalse := (failureStatus_of_isEnding (h.recorded hne) event').2
          rw [hun] at hfalse
          cases hfalse
        simp [hnil, Effect.recordedFailure, hun]
      · exact absurd (hedge.isOf hlog) (by simp [Effect.isOf])

/-- Effects outside of iterations do not matter. -/
lemma Tracks.append {ctx : Context} {log l : List Effect} (h : Tracks ctx log)
    (hl : ∀ e ∈ l, ∀ state event, e ≠ .transitionMade state event) :
    Tracks ctx (log ++ l) := by
  have hfailures : failures (log ++ l) = failures log := by
    have hnil : l.filterMap Effect.failure = [] :=
      List.filterMap_eq_nil_iff.mpr fun e he => (failure_eq_none (hl e he)).1
    rw [failures, List.filterMap_append, hnil, List.append_nil]
    rfl
  have hrecorded : recordedFailures (log ++ l) = recordedFailures log := by
    have hnil : l.filterMap Effect.recordedFailure = [] :=
      List.filterMap_eq_nil_iff.mpr fun e he => (failure_eq_none (hl e he)).2
    rw [recordedFailures, List.filterMap_append, hnil, List.append_nil]
    rfl
  have hmem : ∀ state event, .transitionMade state event ∈ log ++ l →
      .transitionMade state event ∈ log := fun state event hmem =>
    (List.mem_append.mp hmem).resolve_right fun hnew => hl _ hnew state event rfl
  refine ⟨?_, ?_, ?_, ?_⟩
  · rw [hrecorded]
    exact h.exitCode
  · intro hending
    rw [hfailures]
    exact (h.ending hending).imp_right fun ⟨state, event, hlog, hreq⟩ =>
      ⟨state, event, List.mem_append_left _ hlog, hreq⟩
  · rw [hrecorded]
    exact h.recorded
  · rintro ⟨state, event, hlog, hun⟩
    rw [hrecorded]
    exact h.unrecorded ⟨state, event, hmem state event hlog, hun⟩

lemma Tracks.stateTransition {ctx : Context} {log : List Effect} (h : Tracks ctx log)
    (o : Outcomes) (event : FsmEvent) :
    Tracks (stateTransition p config o ctx event log).state.ctx
      (stateTransition p config o ctx event log).state.log :=
  stateTransition_invariant (J := fun m => Tracks m.ctx m.log)
    (fun _ _ _ _ hctx hedge => hctx.edge hedge) h

/-- A step of the daemon preserves the invariant, unless it ends the main loop on its own. -/
lemma Tracks.step {d : Daemon} (h : Tracks d.ctx d.log) (hd : d.ctx.currentState ≠ .stopping)
    {i : Input} (hend : (d.step p config i).ctx.currentState = .stopping ∨
      .mainLoopQuit ∉ (d.step p config i).log) :
    Tracks (d.step p config i).ctx (d.step p config i).log := by
  -- whether refused or not, an event whose refusal is fatal is handled with the invariant kept
  have hdispatch : ∀ (o : Outcomes) (event : FsmEvent) (d : Daemon), Tracks d.ctx d.log →
      d.ctx.currentState ≠ .stopping →
      ((dispatch p config o event d).ctx.currentState = .stopping ∨
        .mainLoopQuit ∉ (dispatch p config o event d).log) →
      Tracks (dispatch p config o event d).ctx (dispatch p config o event d).log := by
    intro o event d h hd hend
    cases hacc : (Dnsconfd.stateTransition p config o d.ctx event d.log).accepted with
    | true =>
      rw [dispatch_of_accepted hacc]
      exact h.stateTransition o event
    | false =>
      rw [dispatch_of_refused hacc] at hend
      rcases hend with hstopping | hquit
      · exact absurd hstopping hd
      · exact absurd (by simp) hquit
  obtain ⟨event, o, isWireless⟩ := i
  cases event with
  | nameLost =>
    rcases hend with hstopping | hquit
    · exact absurd hstopping hd
    · exact absurd (by simp [Daemon.step, onNameLost]) hquit
  | nameAcquired => exact hdispatch o .kickoff d h hd hend
  | sigterm => exact hdispatch o .stop d h hd hend
  | jobFinished result => exact h.stateTransition o (jobEvent result)
  | reloadCall =>
    refine (hdispatch o .reload d h hd (hend.imp_right fun hquit hmem => hquit ?_)).append (by simp)
    exact List.mem_append_left _ hmem
  | updateCall servers mode =>
    simp only [Daemon.step, handleUpdateCall] at hend ⊢
    split
    · exact h.append (by simp)
    · rename_i parsedServers mode' hdecode
      simp only [hdecode] at hend
      have hreceived : Tracks (d.receive parsedServers mode').ctx
          (d.receive parsedServers mode').log :=
        have happended : Tracks d.ctx (d.receive parsedServers mode').log := h.append (by simp)
        ⟨happended.exitCode, happended.ending, happended.recorded, happended.unrecorded⟩
      refine (hdispatch o .update (d.receive parsedServers mode') hreceived hd
        (hend.imp_right fun hquit hmem => hquit ?_)).append (by simp)
      exact List.mem_append_left _ hmem

/-! ## Runs -/

/-- The iteration that enters STOPPING is followed by the one that quits the main loop. -/
lemma Edge.stop_or_quit {o : Outcomes} {ctx : Context} {event : FsmEvent} {r : ActionResult}
    (hedge : Edge p config o ctx event r) (hr : r.ctx.currentState = .stopping) :
    r.event = .stop ∨ .mainLoopQuit ∈ r.effects := by
  cases hedge with
  | abandon hs | startJobFailed hs => exact Or.inl rfl
  | quit hs => exact Or.inr (by simp)
  | refresh hs =>
    have hctx : ctx.currentState = .stopping := hr
    rcases hs with hs | hs <;> rw [hs] at hctx <;> cases hctx
  | ignored hs =>
    have hctx : ctx.currentState = .stopping := hr
    rw [hctx] at hs
    cases hs
  | kickoff | startJob | startJobSubmitted | startJobDone | updateRunning | resolvConfSet
  | resolvConfFailed | updated | updateFailed | stopRunning | stopJob | stopJobSubmitted =>
    cases hr

/-- Between events the machine is in STOPPING only with the main loop quit. -/
lemma quit_of_stopping (is : List Input)
    (h : ((daemon p config).run is).ctx.currentState = .stopping) :
    .mainLoopQuit ∈ ((daemon p config).run is).log := by
  have hrun : ((daemon p config).run is).ctx.currentState = .stopping →
      FsmEvent.none = .stop ∨ .mainLoopQuit ∈ ((daemon p config).run is).log := by
    refine invariant_of_micro_true (d := .initial) (J := fun a =>
      a.ctx.currentState = .stopping → a.event = .stop ∨ .mainLoopQuit ∈ a.log) ?_ ?_ is
    · intro a b ha hstep
      cases hstep with
      | edge hok hedge =>
        intro hb
        refine (hedge.stop_or_quit hb).imp_right fun hquit => ?_
        exact List.mem_append_right _ (List.mem_cons_of_mem _ hquit)
      | receive he hu => exact fun hb => Or.inr ((ha hb).resolve_left (by simp))
      | skipped hrefused =>
        intro hb
        refine Or.inr ((ha hb).resolve_left fun hevent => ?_)
        -- in STOPPING the stop is not refused
        dsimp only at hb hevent
        simp [transitionAction, hb, hevent] at hrefused
      | parsed | replied | rejected | reloadReplied =>
        intro hb
        refine Or.inr (List.mem_append_left _ ?_)
        exact (ha hb).resolve_left (by simp)
      | refused hrefused => exact fun _ => Or.inr (by simp)
      | nameLost => exact fun _ => Or.inr (by simp)
    · simp [Daemon.moment, Daemon.initial, Context.initial]
  exact (hrun h).resolve_left (by simp)

lemma tracks_initial : Tracks .initial [] where
  exitCode := rfl
  ending h := absurd h (by decide)
  recorded h := absurd rfl h
  unrecorded := fun ⟨_, _, hmem, _⟩ => absurd hmem List.not_mem_nil

/-- As long as the main loop has not quit the invariant holds. -/
lemma tracks_run (is : List Input) (h : .mainLoopQuit ∉ ((daemon p config).run is).log) :
    Tracks ((daemon p config).run is).ctx ((daemon p config).run is).log := by
  induction is using List.reverseRecOn with
  | nil => exact tracks_initial
  | append_singleton is i ih =>
    have hstep : (daemon p config).run (is ++ [i]) = ((daemon p config).run is).step p config i :=
      (daemon p config).run_append is [i]
    rw [hstep] at h ⊢
    have hbefore : .mainLoopQuit ∉ ((daemon p config).run is).log := fun hmem =>
      h ((log_grows_step p config _ i).subset hmem)
    exact (ih hbefore).step (fun hs => hbefore (quit_of_stopping is hs)) (Or.inr h)

/-- The failures that are not recorded are left as such in the log. -/
lemma exists_unrecordedFailure {o : Outcomes} {m : Machine}
    (h : isUnrecorded m.ctx.currentState m.event = true) :
    ∃ m', transition p config o m = some m' ∧ UnrecordedFailure m'.log := by
  obtain ⟨r, hr⟩ : ∃ r, transitionAction p config o m.ctx m.event = some r := by
    revert h
    rw [← Option.isSome_iff_exists]
    cases hs : m.ctx.currentState <;> cases m.event <;> simp [isUnrecorded, transitionAction, hs]
  refine ⟨⟨r.ctx, r.event, m.log ++ .transitionMade m.ctx.currentState m.event :: r.effects⟩,
    by simp [transition, hr], ?_⟩
  exact ⟨_, _, List.mem_append_right _ (List.mem_cons_self ..), h⟩

lemma not_unrecordedFailure_run {is : List Input}
    (h : RunMeets p config (fun m => isUnrecorded m.ctx.currentState m.event = false) is) :
    ¬ UnrecordedFailure ((daemon p config).run is).log := by
  have happend : ∀ {log l : List Effect}, ¬ UnrecordedFailure log →
      (∀ state event, .transitionMade state event ∈ l → isUnrecorded state event = false) →
      ¬ UnrecordedFailure (log ++ l) := by
    rintro log l hlog hl ⟨state, event, hmem, hun⟩
    rcases List.mem_append.mp hmem with hold | hnew
    · exact hlog ⟨state, event, hold, hun⟩
    · rw [hl state event hnew] at hun
      cases hun
  refine invariant_of_micro (J := fun a => ¬ UnrecordedFailure a.log) ?_
    (fun ⟨_, _, hmem, _⟩ => absurd hmem List.not_mem_nil) h
  intro a b ha hstep
  cases hstep with
  | edge hok hedge =>
    refine happend ha fun state event hmem => ?_
    rcases List.mem_cons.mp hmem with heq | hnew
    · cases heq
      exact hok
    · exact absurd (hedge.isOf hnew) (by simp [Effect.isOf])
  | receive | skipped => exact ha
  | parsed | refused | replied | rejected | reloadReplied | nameLost => exact happend ha (by simp)

/-- **The exit code.**  When an event ends the main loop by way of STOPPING, the exit code is that of
the first failure, and 0 only if a stop was requested, exactly if in the run no kickoff failed and
no submission of the start job did. -/
theorem exitCode_right_iff (p : Platform) (config : Config) (is : List Input) (i : Input)
    (hloop : .mainLoopQuit ∉ ((daemon p config).run is).log)
    (hstopping : ((daemon p config).run (is ++ [i])).ctx.currentState = .stopping) :
    ExitCodeRight ((daemon p config).run (is ++ [i])) ↔
      RunMeets p config (fun m => isUnrecorded m.ctx.currentState m.event = false)
        (is ++ [i]) := by
  have htracks : Tracks ((daemon p config).run (is ++ [i])).ctx
      ((daemon p config).run (is ++ [i])).log := by
    have hstep : (daemon p config).run (is ++ [i]) = ((daemon p config).run is).step p config i :=
      (daemon p config).run_append is [i]
    rw [hstep] at hstopping ⊢
    exact (tracks_run is hloop).step (fun hd => hloop (quit_of_stopping is hd)) (Or.inl hstopping)
  constructor
  · rintro ⟨hcode, -⟩
    refine runMeets_of_log (B := UnrecordedFailure)
      (fun log log' hgrows ⟨state, event, hmem, hun⟩ => ⟨state, event, hgrows.subset hmem, hun⟩)
      (fun o m hun => exists_unrecordedFailure (by simpa using hun)) fun hun => ?_
    -- nothing was recorded before the failure, and STOPPING was entered by it
    rw [htracks.exitCode, (htracks.unrecorded hun).2] at hcode
    obtain ⟨status, rest, hfirst⟩ := List.exists_cons_of_ne_nil (failures_ne_nil hun)
    rw [hfirst] at hcode
    exact ne_zero_of_mem_failures (by rw [hfirst]; exact List.mem_cons_self ..) hcode.symm
  · intro hmeets
    have hrecorded : ¬ UnrecordedFailure ((daemon p config).run (is ++ [i])).log :=
      not_unrecordedFailure_run hmeets
    have heq := failures_eq hrecorded
    refine ⟨by rw [heq]; exact htracks.exitCode, fun hok => ?_⟩
    refine (htracks.ending (by rw [hstopping]; rfl)).resolve_left (not_not.mpr ?_)
    rw [heq]
    exact htracks.exitCode_eq_ok_iff.mp hok

/-- The start job fails: the exit code says so, and the run meets the condition. -/
theorem exitCode_right_after_start_failure :
    ((daemon .plain .plain).run
      [.ok .nameAcquired, .ok (.jobFinished "fail")]).ctx.exitCode.toNat = 8 ∧
    ExitCodeRight ((daemon .plain .plain).run [.ok .nameAcquired, .ok (.jobFinished "fail")]) ∧
    RunMeets .plain .plain (fun m => isUnrecorded m.ctx.currentState m.event = false)
      [.ok .nameAcquired, .ok (.jobFinished "fail")] := by
  have hright : ExitCodeRight
      ((daemon .plain .plain).run [.ok .nameAcquired, .ok (.jobFinished "fail")]) :=
    ⟨by decide, fun hok => absurd hok (by decide)⟩
  exact ⟨by decide, hright, (exitCode_right_iff .plain .plain [.ok .nameAcquired]
    (.ok (.jobFinished "fail")) (by decide) (by decide)).mp hright⟩

/-- An input at which unbound.conf can not be opened. -/
def Input.confUnopened (event : DaemonEvent) : Input where
  event := event
  outcomes := { Outcomes.allOk with
    kickoff := { Outcomes.allOk.kickoff with confOpens := false } }
  isWireless := fun _ => false

/-- unbound.conf can not be written at the start: the daemon ends with exit code 0, though nothing
requested a stop. -/
theorem exitCode_zero_after_failed_kickoff :
    ((daemon .plain .plain).run [.confUnopened .nameAcquired]).ctx.currentState = .stopping ∧
    .mainLoopQuit ∈ ((daemon .plain .plain).run [.confUnopened .nameAcquired]).log ∧
    failures ((daemon .plain .plain).run [.confUnopened .nameAcquired]).log = [11] ∧
    ((daemon .plain .plain).run [.confUnopened .nameAcquired]).ctx.exitCode.toNat = 0 ∧
    ¬ ExitCodeRight ((daemon .plain .plain).run [.confUnopened .nameAcquired]) := by
  refine ⟨by decide, by decide, by decide, by decide, fun hright => ?_⟩
  exact absurd hright.1 (by decide)

end Dnsconfd
