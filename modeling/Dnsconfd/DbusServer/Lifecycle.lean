import Dnsconfd.DbusServer.Applied
import Dnsconfd.Fsm.Effects

/-!
# The life of the daemon as others see it

Two things that other programs rely on.  systemd is told `READY=1` when the cache has been updated
and `RELOADING=1` before a running daemon restarts it; as long as the daemon does not stop, what it
was told last is `READY=1` exactly in the state RUNNING (`ready_iff_running`).  And what the daemon
does in a whole run falls into two parts: a part of service, and a part in which it reverts
resolv.conf at most once, then submits the stop job at most once, and does nothing else to its
environment but answer calls (`service_then_shutdown`).
-/

namespace Dnsconfd

open Library

variable {p : Platform} {config : Config}

/-! ## What systemd is told -/

/-- What systemd is told by an effect. -/
def Effect.notification : Effect → Option String
  | .notified state => some state
  | _ => none

/-- What systemd was told last. -/
def lastNotified (log : List Effect) : Option String :=
  (log.filterMap Effect.notification).getLast?

lemma lastNotified_append (log l : List Effect) :
    lastNotified (log ++ l) = (lastNotified l).or (lastNotified log) := by
  rw [lastNotified, List.filterMap_append, List.getLast?_append]
  rfl

/-- Effects that tell systemd nothing. -/
lemma lastNotified_append_of_none {log l : List Effect} (h : ∀ e ∈ l, e.notification = none) :
    lastNotified (log ++ l) = lastNotified log := by
  have hnil : l.filterMap Effect.notification = [] := List.filterMap_eq_nil_iff.mpr h
  rw [lastNotified_append, lastNotified, hnil]
  rfl

/-- Only kickoffs and updates of the cache tell systemd anything. -/
lemma Edge.lastNotified_eq {o : Outcomes} {ctx : Context} {event : FsmEvent} {r : ActionResult}
    (hedge : Edge p config o ctx event r) (hkickoff : isKickoff ctx.currentState event = false)
    (happly : isApply ctx.currentState event = false) (log : List Effect) :
    lastNotified (log ++ .transitionMade ctx.currentState event :: r.effects) =
      lastNotified log := by
  refine lastNotified_append_of_none fun e he => ?_
  rcases List.mem_cons.mp he with rfl | he
  · rfl
  have hof := hedge.isOf he
  cases e with
  | notified state => simp [Effect.isOf, hkickoff, happly] at hof
  | _ => rfl

/-- A kickoff by itself tells systemd nothing. -/
lemma lastNotified_kickoff (o : KickoffOutcome) (ctx : Context) :
    lastNotified (fsmStartingEventKickoff p config o ctx).effects = none := by
  rcases fsmStartingEventKickoff_cases p config o ctx with ⟨ca, -, heffects⟩ | ⟨-, hall⟩
  · rw [heffects]
    rfl
  · have hnone : ∀ e ∈ (fsmStartingEventKickoff p config o ctx).effects, e.notification = none := by
      intro e he
      rw [hall e he]
      rfl
    exact @lastNotified_append_of_none [] _ hnone

/-- The text for systemd when the cache is in use. -/
def readyText : String := "READY=1\n"

/-- What systemd was told last, in the states before the daemon starts to stop: it is ready in the
state RUNNING and on the way there, and it is not while the cache is configured and restarted. -/
def ReadyIn (state : FsmState) (event : FsmEvent) (last : Option String) : Prop :=
  match state with
  | .running => last = some readyText
  | .updatingDnsManager => event = .success → last = some readyText
  | .starting | .configuringDnsManager | .submittingStartJob | .waitingForStartJob =>
    last ≠ some readyText
  | _ => True

/-- A kickoff either restarts a cache that is not in use yet or tells systemd so before. -/
lemma kickoff_effects {o : Outcomes} {ctx : Context} {event : FsmEvent} {r : ActionResult}
    (hkickoff : isKickoff ctx.currentState event = true)
    (hr : transitionAction p config o ctx event = some r) :
    ((ctx.currentState = .starting ∨ ctx.currentState = .waitingForStartJob) ∧
        r.effects = (fsmStartingEventKickoff p config o.kickoff ctx).effects) ∨
      r.effects = .notified "RELOADING=1\n" ::
        (fsmStartingEventKickoff p config o.kickoff ctx).effects := by
  have hcases : (ctx.currentState = .starting ∧ event = .kickoff) ∨
      (ctx.currentState = .waitingForStartJob ∧ event = .reload) ∨
      (ctx.currentState = .updatingDnsManager ∧ event = .reload) ∨
      (ctx.currentState = .running ∧ event = .reload) := by
    revert hkickoff
    cases ctx.currentState <;> cases event <;> simp [isKickoff]
  unfold transitionAction at hr
  rcases hcases with ⟨hs, rfl⟩ | ⟨hs, rfl⟩ | ⟨hs, rfl⟩ | ⟨hs, rfl⟩ <;>
    simp only [hs, Option.some.injEq] at hr <;> subst hr
  · exact Or.inl ⟨Or.inl hs, rfl⟩
  · exact Or.inl ⟨Or.inr hs, rfl⟩
  · exact Or.inr rfl
  · exact Or.inr rfl

/-- A kickoff leaves systemd told that the daemon is not ready. -/
lemma lastNotified_of_isKickoff {o : Outcomes} {ctx : Context} {event : FsmEvent}
    {r : ActionResult} {log : List Effect} (h : ReadyIn ctx.currentState event (lastNotified log))
    (hkickoff : isKickoff ctx.currentState event = true)
    (hr : transitionAction p config o ctx event = some r) :
    lastNotified (log ++ .transitionMade ctx.currentState event :: r.effects) ≠
      some readyText := by
  have hquiet := @lastNotified_kickoff p config o.kickoff ctx
  rcases kickoff_effects hkickoff hr with ⟨hs, heffects⟩ | heffects
  · have hnone : lastNotified (.transitionMade ctx.currentState event :: r.effects) = none := by
      rw [heffects]
      exact (lastNotified_append [_] _).trans (by rw [hquiet]; rfl)
    rw [lastNotified_append, hnone, Option.none_or]
    rcases hs with hs | hs <;> rw [hs] at h <;> exact h
  · have hlast : lastNotified (.transitionMade ctx.currentState event :: r.effects) =
        some "RELOADING=1\n" := by
      rw [heffects]
      exact (lastNotified_append [_, _] _).trans (by rw [hquiet]; rfl)
    rw [lastNotified_append, hlast, Option.some_or]
    decide

/-- The invariant is preserved by every iteration of the state machine. -/
lemma readyIn_transition {o : Outcomes} {m m' : Machine}
    (h : ReadyIn m.ctx.currentState m.event (lastNotified m.log))
    (hm : transition p config o m = some m') :
    ReadyIn m'.ctx.currentState m'.event (lastNotified m'.log) := by
  obtain ⟨ctx, event, log⟩ := m
  rw [transition, Option.map_eq_some_iff] at hm
  obtain ⟨r, hr, rfl⟩ := hm
  dsimp only at h hr ⊢
  have hedge := edge_of_transitionAction hr
  have hsame := fun hkickoff happly => hedge.lastNotified_eq hkickoff happly log
  cases hedge with
  | refresh hs =>
    have hlast := hsame (by rcases hs with hs | hs <;> rw [hs] <;> rfl)
      (by rcases hs with hs | hs <;> rw [hs] <;> rfl)
    rw [hlast]
    change ReadyIn ctx.currentState _ _
    rcases hs with hs | hs <;> rw [hs] at h ⊢ <;> exact h
  | kickoff hs hn => exact lastNotified_of_isKickoff h hs hr
  | ignored hs =>
    by_cases hstart : ctx.currentState = .starting
    · have hlast := hsame (by revert hs; rw [hstart]; cases event <;> simp [isIgnored, isKickoff])
        (by rw [hstart]; rfl)
      rw [hlast]
      rw [hstart] at h ⊢
      exact h
    · have hwaiting : ctx.currentState = .waitingStopJob := by
        revert hs hstart
        cases ctx.currentState <;> cases event <;> simp [isIgnored]
      rw [hwaiting]
      trivial
  | startJob hs =>
    have hlast := hsame (by rw [hs]; rfl) (by rw [hs]; rfl)
    rw [hlast]
    rw [hs] at h
    exact h
  | startJobSubmitted hs =>
    have hlast := hsame (by rw [hs]; rfl) (by rw [hs]; rfl)
    rw [hlast]
    rw [hs] at h
    exact h
  | resolvConfSet hs =>
    rcases updateDnsManager_cases p config o.update ctx with
      ⟨result, effects, -, heq⟩ | ⟨effects, event, hevent, -, heq⟩
    · rw [heq]
      intro _
      have hsplit : log ++ .transitionMade ctx.currentState .success :: (effects ++
          [.updateSucceeded ctx.currentDynamicServers, .notified "READY=1\n",
            .serialSignal ctx.requestedConfigurationSerial]) =
          (log ++ .transitionMade ctx.currentState .success :: effects) ++
          [.updateSucceeded ctx.currentDynamicServers, .notified "READY=1\n",
            .serialSignal ctx.requestedConfigurationSerial] := by simp
      dsimp only [ActionResult.enter]
      rw [hsplit, lastNotified_append]
      rfl
    · rw [heq]
      intro hsuccess
      rcases hevent with rfl | rfl <;> cases hsuccess
  | updated hs =>
    have hlast := hsame (by rw [hs]; rfl) (by rw [hs]; rfl)
    rw [hlast]
    rw [hs] at h
    exact h rfl
  | abandon hs | startJobDone hs | startJobFailed hs | updateRunning hs | resolvConfFailed hs
  | updateFailed hs | stopRunning hs | stopJob hs | stopJobSubmitted hs => trivial
  | quit hs =>
    rw [hs]
    trivial

/-- `state_transition` preserves the invariant. -/
lemma readyIn_stateTransition {o : Outcomes} {ctx : Context} {event : FsmEvent} {log : List Effect}
    (h : ReadyIn ctx.currentState event (lastNotified log)) :
    let m := (stateTransition p config o ctx event log).state
    ReadyIn m.ctx.currentState m.event (lastNotified m.log) := by
  have hforall : LoopMeets (transition p config o) Machine.hasEvent (fun _ => True) maxIterations
      ⟨ctx, event, log⟩ := loopMeets_of_forall (fun _ => trivial) _ _
  exact doWhile_related
    (R := fun m m' : Machine => ReadyIn m.ctx.currentState m.event (lastNotified m.log) →
      ReadyIn m'.ctx.currentState m'.event (lastNotified m'.log))
    (fun _ => id) (fun _ _ _ h₁ h₂ h => h₂ (h₁ h)) (fun _ _ _ hm h => readyIn_transition h hm)
    maxIterations _ _ hforall (stateTransitionLoop_eq p config o ctx event log) h

/-- An event from outside does not matter for the invariant. -/
lemma ReadyIn.receive {state : FsmState} {event : FsmEvent} {last : Option String}
    (h : ReadyIn state .none last) (hevent : event.isExternal = true) : ReadyIn state event last := by
  cases state with
  | updatingDnsManager =>
    rintro rfl
    cases hevent
  | _ => exact h

/-- Handling an event whose refusal is fatal preserves the invariant. -/
lemma readyIn_dispatch {o : Outcomes} {event : FsmEvent} {d : Daemon}
    (h : ReadyIn d.ctx.currentState .none (lastNotified d.log))
    (hevent : event.isExternal = true) :
    ReadyIn (dispatch p config o event d).ctx.currentState .none
      (lastNotified (dispatch p config o event d).log) := by
  cases hacc : (stateTransition p config o d.ctx event d.log).accepted with
  | true =>
    have hready := @readyIn_stateTransition p config o _ _ _ (h.receive hevent)
    dsimp only at hready
    rw [(stateTransition_rests hacc).1] at hready
    rw [dispatch_of_accepted hacc]
    exact hready
  | false =>
    rw [dispatch_of_refused hacc, lastNotified_append_of_none (by simp [Effect.notification])]
    exact h

/-- The invariant is preserved by every step of the daemon. -/
lemma readyIn_step {d : Daemon} (h : ReadyIn d.ctx.currentState .none (lastNotified d.log))
    (i : Input) :
    ReadyIn (d.step p config i).ctx.currentState .none (lastNotified (d.step p config i).log) := by
  obtain ⟨event, o, isWireless⟩ := i
  cases event with
  | updateCall servers mode =>
    change ReadyIn (handleUpdateCall p config o isWireless servers mode d).ctx.currentState .none
      (lastNotified (handleUpdateCall p config o isWireless servers mode d).log)
    unfold handleUpdateCall
    split
    · rw [lastNotified_append_of_none (by simp [Effect.notification])]
      exact h
    · rename_i parsedServers mode' _
      have hreceived : ReadyIn (d.receive parsedServers mode').ctx.currentState .none
          (lastNotified (d.receive parsedServers mode').log) := by
        rw [Daemon.receive, lastNotified_append_of_none (by simp [Effect.notification])]
        exact h
      rw [Daemon.accept, lastNotified_append_of_none (by simp [Effect.notification])]
      exact readyIn_dispatch hreceived rfl
  | reloadCall =>
    have hdispatched := @readyIn_dispatch p config o .reload d h rfl
    change ReadyIn (dispatch p config o .reload d).ctx.currentState .none
      (lastNotified ((dispatch p config o .reload d).log ++ [.reloadReplied "Reload accepted"]))
    rw [lastNotified_append_of_none (by simp [Effect.notification])]
    exact hdispatched
  | nameAcquired => exact readyIn_dispatch h rfl
  | nameLost =>
    change ReadyIn d.ctx.currentState .none (lastNotified (d.log ++ [.mainLoopQuit]))
    rw [lastNotified_append_of_none (by simp [Effect.notification])]
    exact h
  | sigterm => exact readyIn_dispatch h rfl
  | jobFinished result =>
    have hexternal := (jobEvent_isExternal result).1
    change ReadyIn (stateTransition p config o d.ctx (jobEvent result) d.log).state.ctx.currentState
      .none (lastNotified (stateTransition p config o d.ctx (jobEvent result) d.log).state.log)
    cases hacc : (stateTransition p config o d.ctx (jobEvent result) d.log).accepted with
    | true =>
      have hready := @readyIn_stateTransition p config o _ _ _ (h.receive hexternal)
      dsimp only at hready
      rw [(stateTransition_rests hacc).1] at hready
      exact hready
    | false =>
      rw [(stateTransition_unchanged hacc).2]
      exact h

/-- As long as the daemon has not started to stop, systemd was told last that it is ready exactly if
it is in the state RUNNING: not before the cache is in use for the first time, not while a Reload or
another certification authority makes the cache restart, and again as soon as that is over. -/
theorem ready_iff_running (p : Platform) (config : Config) (is : List Input)
    (hlive : ((daemon p config).run is).ctx.currentState.isLive = true) :
    lastNotified ((daemon p config).run is).log = some readyText ↔
      ((daemon p config).run is).ctx.currentState = .running := by
  have hinitial : ReadyIn Daemon.initial.ctx.currentState .none (lastNotified Daemon.initial.log) := by
    change lastNotified [] ≠ some readyText
    decide
  have hready : ReadyIn ((daemon p config).run is).ctx.currentState .none
      (lastNotified ((daemon p config).run is).log) :=
    (daemon p config).invariant (J := fun d => ReadyIn d.ctx.currentState .none (lastNotified d.log))
      (fun _ i h => readyIn_step h i) hinitial is
  have hresting := isResting_run p config is
  generalize ((daemon p config).run is).ctx.currentState = state at *
  cases state with
  | running => exact iff_of_true hready rfl
  | starting | waitingForStartJob => exact iff_of_false hready (by simp)
  | configuringDnsManager | submittingStartJob | settingResolvConf | updatingDnsManager =>
    cases hresting
  | revertingResolvConf | submittingStopJob | waitingStopJob | stopping => cases hlive

/-- A daemon that is running and one that reloads. -/
theorem ready_iff_running_reload :
    let running := [Input.ok .nameAcquired, .ok (.jobFinished "done")]
    let reloading := running ++ [.ok .reloadCall]
    (lastNotified ((daemon .plain .plain).run running).log = some readyText ↔
        ((daemon .plain .plain).run running).ctx.currentState = .running) ∧
      ((daemon .plain .plain).run reloading).ctx.currentState = .waitingForStartJob ∧
      (lastNotified ((daemon .plain .plain).run reloading).log = some readyText ↔
        ((daemon .plain .plain).run reloading).ctx.currentState = .running) :=
  ⟨ready_iff_running .plain .plain _ (by decide), by decide,
    ready_iff_running .plain .plain _ (by decide)⟩

/-! ## Service and shutdown -/

/-- What the daemon does while it serves: it configures and restarts the cache, takes resolv.conf
over, updates the cache and announces that. -/
def Effect.isService : Effect → Bool
  | .monitorCreated | .confWritten _ | .startJobDone | .resolvConfOpened | .resolvConfWritten _
  | .commandExecuted _ _ | .updateSucceeded _ | .serialSignal _ | .notified _ => true
  | .controlWritten command => command = "restart"
  | _ => false

/-- What the daemon does when it stops: it reverts resolv.conf and submits the stop job. -/
def Effect.isShutdown : Effect → Bool
  | .revertExecuted | .resolvConfRestored _ => true
  | .controlWritten command => command = "stop"
  | _ => false

/-- The two steps of stopping. -/
def Effect.isShutdownStep : Effect → Bool
  | .revertExecuted => true
  | .controlWritten command => command = "stop"
  | _ => false

/-- The steps of stopping that may have been made when a state is reached. -/
def FsmState.shutdownSteps : FsmState → List Effect
  | .revertingResolvConf => [.revertExecuted]
  | .submittingStopJob | .waitingStopJob | .stopping => [.revertExecuted, .controlWritten "stop"]
  | _ => []

/-- The iterations with effects of service. -/
def isServiceIteration (state : FsmState) (event : FsmEvent) : Bool :=
  isKickoff state event || isStartJob state event || isWrite state event || isApply state event

/-- The iterations with effects of stopping. -/
def isShutdownIteration (state : FsmState) (event : FsmEvent) : Bool :=
  isRevert state event || isAnyStopJob state event

/-- Effects of service belong to iterations of service. -/
lemma isServiceIteration_of_isOf {state : FsmState} {event : FsmEvent} {e : Effect}
    (hof : e.isOf state event = true) (he : e.isService = true) :
    isServiceIteration state event = true := by
  unfold isServiceIteration
  cases e with
  | startJobDone =>
    simp only [Effect.isOf, Bool.and_eq_true, decide_eq_true_eq] at hof
    rw [hof.1, hof.2]
    rfl
  | controlWritten command =>
    simp only [Effect.isService, decide_eq_true_eq] at he
    subst he
    simp_all [Effect.isOf]
  | notified text =>
    simp only [Effect.isOf, Bool.or_eq_true] at hof ⊢
    exact hof.imp_left fun h => Or.inl (Or.inl h)
  | _ => simp_all [Effect.isOf, Effect.isService]

/-- Effects of stopping belong to iterations of stopping. -/
lemma isShutdownIteration_of_isOf {state : FsmState} {event : FsmEvent} {e : Effect}
    (hof : e.isOf state event = true) (he : e.isShutdown = true) :
    isShutdownIteration state event = true := by
  unfold isShutdownIteration
  cases e with
  | controlWritten command =>
    simp only [Effect.isShutdown, decide_eq_true_eq] at he
    subst he
    simp_all [Effect.isOf]
  | _ => simp_all [Effect.isOf, Effect.isShutdown]

/-- An iteration of service starts and ends before the daemon stops. -/
lemma isLive_of_isServiceIteration {state next : FsmState} {event : FsmEvent}
    (hnext : nextState state event = some next) (h : isServiceIteration state event = true) :
    state.isLive = true ∧ next.isLive = true := by
  revert hnext h
  cases state <;> cases event <;>
    simp +contextual [nextState, isServiceIteration, isKickoff, isStartJob, isWrite, isApply,
      FsmState.isLive, eq_comm]

/-- An iteration of stopping ends after the daemon has started to stop. -/
lemma not_isLive_of_isShutdownIteration {state next : FsmState} {event : FsmEvent}
    (hnext : nextState state event = some next) (h : isShutdownIteration state event = true) :
    next.isLive = false := by
  revert hnext h
  cases state <;> cases event <;>
    simp +contextual [nextState, isShutdownIteration, isRevert, isAnyStopJob, isStopJob,
      FsmState.isLive, eq_comm]

/-- A daemon that has started to stop does not serve again. -/
lemma Edge.isLive_of_isLive {o : Outcomes} {ctx : Context} {event : FsmEvent} {r : ActionResult}
    (hedge : Edge p config o ctx event r) (hlive : r.ctx.currentState.isLive = true) :
    ctx.currentState.isLive = true := by
  have hnext := hedge.nextState_eq
  generalize r.ctx.currentState = next at hnext hlive
  revert hnext hlive
  cases ctx.currentState <;> cases event <;>
    simp +contextual [nextState, FsmState.isLive, eq_comm]

/-- The steps of stopping that an iteration makes, together with those made before. -/
lemma Edge.shutdownSteps {o : Outcomes} {ctx : Context} {event : FsmEvent} {r : ActionResult}
    (hedge : Edge p config o ctx event r) (hstops : r.ctx.currentState.isLive = false) :
    (ctx.currentState.shutdownSteps ++ r.effects.filter Effect.isShutdownStep).Sublist
      r.ctx.currentState.shutdownSteps := by
  have hrevert : ∀ o ctx, (revertResolvConf o ctx).effects.filter Effect.isShutdownStep =
      [.revertExecuted] := by
    intro o ctx
    obtain ⟨rest, heffects, hrest⟩ := revertResolvConf_effects o ctx
    have hnil : rest.filter Effect.isShutdownStep = [] := by
      refine List.filter_eq_nil_iff.mpr fun e he => ?_
      rcases hrest e he with ⟨text, rfl, -⟩ | ⟨rfl, -⟩ <;> simp [Effect.isShutdownStep]
    rw [heffects, List.filter_cons_of_pos rfl, hnil]
  have hstop : ∀ o ctx, ((submitStopJob o ctx).effects.filter Effect.isShutdownStep).Sublist
      [.controlWritten "stop"] := by
    intro o ctx
    unfold submitStopJob setServiceStatus
    dsimp only
    split_ifs <;> simp [Effect.isShutdownStep]
  cases hedge with
  | refresh hs =>
    have hlive : ctx.currentState.isLive = true := by rcases hs with hs | hs <;> rw [hs] <;> rfl
    exact absurd hlive (by rw [show ctx.currentState.isLive = false from hstops]; simp)
  | abandon hs =>
    revert hs
    cases ctx.currentState <;> cases event <;> simp [isAbandon, FsmState.shutdownSteps]
  | ignored hs => simp
  | startJobFailed hs => simp [hs, FsmState.shutdownSteps]
  | resolvConfFailed hs =>
    rw [hs]
    exact (hstop _ _).cons _
  | updateFailed hs =>
    rw [hs]
    rw [ActionResult.enter, hrevert]
    exact List.Sublist.refl _
  | stopRunning hs =>
    rw [hs]
    rw [ActionResult.enter, hrevert]
    exact List.Sublist.refl _
  | stopJob hs =>
    have hbefore : ctx.currentState.shutdownSteps.Sublist [.revertExecuted] := by
      revert hs
      cases ctx.currentState <;> cases event <;> simp [isStopJob, FsmState.shutdownSteps]
    exact hbefore.append (hstop _ _)
  | stopJobSubmitted hs => simp [hs, FsmState.shutdownSteps]
  | quit hs => simp [Effect.isShutdownStep]
  | kickoff hs hn => cases hstops
  | startJob hs | startJobSubmitted hs | startJobDone hs | updateRunning hs | resolvConfSet hs
  | updated hs => cases hstops

/-- The log is a part of service, which ends when the daemon starts to stop, and a part of stopping,
with the steps in order. -/
structure Falls (state : FsmState) (service shutdown : List Effect) : Prop where
  serves : ∀ e ∈ service, e.isShutdown = false
  stops : ∀ e ∈ shutdown, e.isService = false
  live : state.isLive = true → shutdown = []
  steps : (shutdown.filter Effect.isShutdownStep).Sublist state.shutdownSteps

/-- The log falls into these parts. -/
def ServiceThenShutdown (state : FsmState) (log : List Effect) : Prop :=
  ∃ service shutdown, log = service ++ shutdown ∧ Falls state service shutdown

/-- Effects that belong to neither part. -/
lemma ServiceThenShutdown.aside {state : FsmState} {log l : List Effect}
    (h : ServiceThenShutdown state log)
    (hl : ∀ e ∈ l, e.isService = false ∧ e.isShutdown = false ∧ e.isShutdownStep = false) :
    ServiceThenShutdown state (log ++ l) := by
  obtain ⟨service, shutdown, rfl, hfalls⟩ := h
  by_cases hlive : state.isLive = true
  · obtain rfl := hfalls.live hlive
    refine ⟨service ++ l, [], by simp, ⟨fun e he => ?_, hfalls.stops, hfalls.live, hfalls.steps⟩⟩
    rcases List.mem_append.mp he with he | he
    · exact hfalls.serves e he
    · exact (hl e he).2.1
  · refine ⟨service, shutdown ++ l, by simp, ⟨hfalls.serves, fun e he => ?_,
      fun h => absurd h hlive, ?_⟩⟩
    · rcases List.mem_append.mp he with he | he
      · exact hfalls.stops e he
      · exact (hl e he).1
    · have hnil : l.filter Effect.isShutdownStep = [] :=
        List.filter_eq_nil_iff.mpr fun e he => by simp [(hl e he).2.2]
      rw [List.filter_append, hnil, List.append_nil]
      exact hfalls.steps

/-- The log still falls into these parts after an iteration. -/
lemma ServiceThenShutdown.edge {o : Outcomes} {ctx : Context} {event : FsmEvent} {log : List Effect}
    {r : ActionResult} (h : ServiceThenShutdown ctx.currentState log)
    (hedge : Edge p config o ctx event r) :
    ServiceThenShutdown r.ctx.currentState
      (log ++ .transitionMade ctx.currentState event :: r.effects) := by
  have hperforming : ∀ e : Effect, e = .transitionMade ctx.currentState event →
      e.isService = false ∧ e.isShutdown = false ∧ e.isShutdownStep = false := by
    rintro e rfl
    exact ⟨rfl, rfl, rfl⟩
  obtain ⟨service, shutdown, rfl, hfalls⟩ := h
  by_cases hlive : r.ctx.currentState.isLive = true
  · -- service goes on
    obtain rfl := hfalls.live (hedge.isLive_of_isLive hlive)
    have hnew : ∀ e ∈ r.effects, e.isShutdown = false := by
      intro e he
      by_contra hshutdown
      have hiteration := isShutdownIteration_of_isOf (hedge.isOf he) (by simpa using hshutdown)
      rw [not_isLive_of_isShutdownIteration hedge.nextState_eq hiteration] at hlive
      cases hlive
    refine ⟨service ++ .transitionMade ctx.currentState event :: r.effects, [], by simp,
      ⟨fun e he => ?_, by simp, fun _ => rfl, by simp⟩⟩
    rcases List.mem_append.mp he with he | he
    · exact hfalls.serves e he
    rcases List.mem_cons.mp he with he | he
    · exact (hperforming e he).2.1
    · exact hnew e he
  · -- the daemon starts to stop or goes on with it
    have hstops : r.ctx.currentState.isLive = false := by simpa using hlive
    have hnew : ∀ e ∈ r.effects, e.isService = false := by
      intro e he
      by_contra hservice
      have hiteration := isServiceIteration_of_isOf (hedge.isOf he) (by simpa using hservice)
      exact hlive (isLive_of_isServiceIteration hedge.nextState_eq hiteration).2
    refine ⟨service, shutdown ++ .transitionMade ctx.currentState event :: r.effects, by simp,
      ⟨hfalls.serves, fun e he => ?_, fun h => absurd h hlive, ?_⟩⟩
    · rcases List.mem_append.mp he with he | he
      · exact hfalls.stops e he
      rcases List.mem_cons.mp he with he | he
      · exact (hperforming e he).1
      · exact hnew e he
    · rw [List.filter_append, List.filter_cons_of_neg (by simp [Effect.isShutdownStep])]
      exact (hfalls.steps.append (List.Sublist.refl _)).trans (hedge.shutdownSteps hstops)

/-- The log falls into these parts after every run. -/
lemma serviceThenShutdown_run (is : List Input) :
    ServiceThenShutdown ((daemon p config).run is).ctx.currentState ((daemon p config).run is).log := by
  have hinitial : ServiceThenShutdown Daemon.initial.ctx.currentState Daemon.initial.log :=
    ⟨[], [], rfl, by simp, by simp, fun _ => rfl, by simp⟩
  refine invariant_of_micro_true (p := p) (d := .initial)
    (J := fun a => ServiceThenShutdown a.ctx.currentState a.log) ?_ hinitial is
  intro a b h hstep
  cases hstep with
  | edge hok hedge => exact h.edge hedge
  | receive | skipped => exact h
  | parsed | refused | replied | rejected | reloadReplied | nameLost =>
    exact h.aside (by simp [Effect.isService, Effect.isShutdown, Effect.isShutdownStep])

/-- The daemon has started to stop, and since the log was `log` it has done nothing of service. -/
structure ShutsDownSince (log : List Effect) (a : Moment) : Prop where
  not_live : a.ctx.currentState.isLive = false
  later : ∃ later, a.log = log ++ later ∧ ∀ e ∈ later, e.isService = false

/-- Effects that are none of service leave it so. -/
lemma ShutsDownSince.append {log l : List Effect} {a b : Moment} (h : ShutsDownSince log a)
    (hlive : b.ctx.currentState.isLive = false) (hlog : b.log = a.log ++ l)
    (hl : ∀ e ∈ l, e.isService = false) : ShutsDownSince log b := by
  obtain ⟨later, hlater, hnone⟩ := h.later
  refine ⟨hlive, later ++ l, by rw [hlog, hlater, List.append_assoc], fun e he => ?_⟩
  rcases List.mem_append.mp he with he | he
  · exact hnone e he
  · exact hl e he

/-- An iteration of a daemon that has started to stop has no effect of service. -/
lemma Edge.not_isService {o : Outcomes} {ctx : Context} {event : FsmEvent} {r : ActionResult}
    (hedge : Edge p config o ctx event r) (hlive : ctx.currentState.isLive = false) {e : Effect}
    (he : e ∈ r.effects) : e.isService = false := by
  by_contra hservice
  have hiteration := isServiceIteration_of_isOf (hedge.isOf he) (by simpa using hservice)
  rw [(isLive_of_isServiceIteration hedge.nextState_eq hiteration).1] at hlive
  cases hlive

/-- A daemon that has started to stop goes on stopping, whatever happens. -/
lemma shutsDownSince_runFrom {d : Daemon} (hlive : d.ctx.currentState.isLive = false)
    (js : List Input) : ShutsDownSince d.log ((daemon p config).runFrom d js).moment := by
  have hnow : ShutsDownSince d.log d.moment := ⟨hlive, [], (List.append_nil _).symm, by simp⟩
  refine invariant_of_micro_true ?_ hnow js
  intro a b h hstep
  cases hstep with
  | edge hok hedge =>
    refine h.append ?_ rfl fun e he => ?_
    · by_contra hback
      have hbefore := hedge.isLive_of_isLive (by simpa using hback)
      rw [show _ = false from h.not_live] at hbefore
      cases hbefore
    · rcases List.mem_cons.mp he with rfl | he
      · rfl
      · exact hedge.not_isService h.not_live he
  | receive | skipped => exact ⟨h.not_live, h.later⟩
  | parsed | refused | replied | rejected | reloadReplied | nameLost =>
    exact h.append h.not_live rfl (by simp [Effect.isService])

/-- Every run is a time of service followed by a shutdown, which starts when the daemon leaves the
states of service for good.  In the shutdown resolv.conf is reverted at most once and after that the
stop job is submitted at most once; nothing of that happens before.  Once the daemon has left the
states of service, it does not come back to them whatever happens next, and from then on unbound.conf
is not written, the cache is neither restarted nor sent any command, resolv.conf is not taken over,
and neither systemd nor the clients are told anything more. -/
theorem service_then_shutdown (p : Platform) (config : Config) (is : List Input) :
    let d := (daemon p config).run is
    (∃ service shutdown, d.log = service ++ shutdown ∧
      (∀ e ∈ service, e.isShutdown = false) ∧ (∀ e ∈ shutdown, e.isService = false) ∧
      (shutdown.filter Effect.isShutdownStep).Sublist [.revertExecuted, .controlWritten "stop"] ∧
      (d.ctx.currentState.isLive = true → shutdown = [])) ∧
    (d.ctx.currentState.isLive = false → ∀ js, ∃ later,
      let d' := (daemon p config).runFrom d js
      d'.ctx.currentState.isLive = false ∧ d'.log = d.log ++ later ∧
        ∀ e ∈ later, e.isService = false) := by
  intro d
  constructor
  · obtain ⟨service, shutdown, hlog, hfalls⟩ := @serviceThenShutdown_run p config is
    refine ⟨service, shutdown, hlog, hfalls.serves, hfalls.stops, hfalls.steps.trans ?_,
      hfalls.live⟩
    cases d.ctx.currentState <;> simp [FsmState.shutdownSteps]
  · intro hlive js
    have hstops := @shutsDownSince_runFrom p config d hlive js
    obtain ⟨later, hlog, hnone⟩ := hstops.later
    exact ⟨later, hstops.not_live, hlog, hnone⟩

end Dnsconfd
