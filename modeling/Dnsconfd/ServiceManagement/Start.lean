import Dnsconfd.DbusServer.Applied
import Dnsconfd.DbusServer.CaStability
import Dnsconfd.DbusServer.Resources
import Dnsconfd.ServiceManagement.Stop

/-!
# A start job is completed

The status file does not tell which restart it is about, so that the daemon may take a start job for
done while the helper is still to restart the cache once more.  What the two arrive at does not depend
on that.  In the states that follow a start job the last thing written to the files of the helper is
its `restart` (`started_run`), and a helper that has taken up this command has loaded, or is going to
load, the unbound.conf that was written before it, unless the cache fails: whenever nothing is left to
do, either the cache runs with the unbound.conf written last and the status file says `ready`, or it is
down and the status file says `fail` (`restart_reaches_cache`).

The daemon gets to RUNNING from there when it reads the status file and its operations succeed, unless
the effective CA has changed since unbound.conf was written; then it asks for another restart.  With a
stable CA one more is enough.  If the cache has failed, reading the status file ends the daemon
(`start_completes`).
-/

namespace Dnsconfd

open Library

variable {p : Platform} {config : Config}

/-! ## The last restart -/

/-- None of the files that the helper reads or writes is written. -/
def Untouched (effects : List Effect) : Prop :=
  ∀ e ∈ effects, e.isSharedWrite = false ∧ e.isServiceFile = false

lemma Untouched.append {l l' : List Effect} (h : Untouched l) (h' : Untouched l') :
    Untouched (l ++ l') := by
  intro e he
  rcases List.mem_append.mp he with he | he
  · exact h e he
  · exact h' e he

lemma untouched_nil : Untouched [] := by
  simp [Untouched]

/-- The last thing written to these files is `restart`. -/
def RestartLast (log : List Effect) : Prop :=
  ∃ before after, log = before ++ .controlWritten "restart" :: after ∧ Untouched after

lemma RestartLast.append {log l : List Effect} (h : RestartLast log) (hl : Untouched l) :
    RestartLast (log ++ l) := by
  obtain ⟨before, after, rfl, hafter⟩ := h
  exact ⟨before, after ++ l, by simp, hafter.append hl⟩

/-- The last restart is what comes last, or it was the last before. -/
lemma RestartLast.of_concat {log : List Effect} {e : Effect} (h : RestartLast (log ++ [e])) :
    e = .controlWritten "restart" ∨
      (RestartLast log ∧ e.isSharedWrite = false ∧ e.isServiceFile = false) := by
  obtain ⟨before, after, heq, hafter⟩ := h
  rcases List.eq_nil_or_concat after with rfl | ⟨after, e', rfl⟩
  · exact Or.inl (List.singleton_inj.mp (List.append_inj' heq rfl).2)
  · rw [List.concat_eq_append] at heq hafter
    rw [← List.cons_append, ← List.append_assoc] at heq
    obtain ⟨rfl, hlast⟩ := List.append_inj' heq rfl
    obtain rfl := List.singleton_inj.mp hlast
    exact Or.inr ⟨⟨before, after, rfl, fun e he => hafter e (List.mem_append_left _ he)⟩,
      hafter e (List.mem_append_right _ List.mem_cons_self)⟩

/-- The last restart is in the first part of a list if there is none in the second one. -/
lemma RestartLast.of_append {l l' : List Effect} (h : RestartLast (l ++ l'))
    (hl' : "restart" ∉ commandsOf l') : RestartLast l ∧ Untouched l' := by
  obtain ⟨before, after, heq, hafter⟩ := h
  rcases List.append_eq_append_iff.mp heq with ⟨rest, rfl, hrest⟩ | ⟨rest, rfl, hrest⟩
  · refine absurd ?_ hl'
    rw [hrest, commandsOf_append]
    exact List.mem_append_right _ List.mem_cons_self
  · cases rest with
    | nil =>
      refine absurd ?_ hl'
      rw [← List.nil_append l', ← hrest]
      exact List.mem_cons_self
    | cons e rest =>
      obtain ⟨rfl, rfl⟩ := List.cons.inj hrest
      exact ⟨⟨before, rest, rfl, fun e he => hafter e (List.mem_append_left _ he)⟩,
        fun e he => hafter e (List.mem_append_right _ he)⟩

/-- The states that follow a start job, up to the next one or the stop. -/
def isStarted : FsmState → FsmEvent → Bool
  | .submittingStartJob, event => event = .success
  | .waitingForStartJob, _ | .settingResolvConf, _ | .updatingDnsManager, _ | .running, _ => true
  | _, _ => false

/-- These states are reached from one another, unless a start job is submitted. -/
lemma isStarted_of_nextState {state next : FsmState} {event event' : FsmEvent}
    (hnext : nextState state event = some next) (hstart : isStartJob state event = false)
    (h : isStarted next event' = true) :
    isStarted state event = true ∧ isKickoff state event = false ∧
      isAnyStopJob state event = false := by
  cases state <;> cases event <;>
    simp only [nextState, reduceCtorEq, Option.some.injEq] at hnext <;> subst hnext <;>
    simp_all [isStarted, isStartJob, isKickoff, isAnyStopJob, isStopJob]

/-- Other iterations than these write none of the files. -/
lemma Edge.untouched {o : Outcomes} {ctx : Context} {event : FsmEvent} {r : ActionResult}
    (hedge : Edge p config o ctx event r) (hkickoff : isKickoff ctx.currentState event = false)
    (hstart : isStartJob ctx.currentState event = false)
    (hstop : isAnyStopJob ctx.currentState event = false) :
    Untouched (.transitionMade ctx.currentState event :: r.effects) := by
  intro e he
  rcases List.mem_cons.mp he with rfl | he
  · exact ⟨rfl, rfl⟩
  have hof := hedge.isOf he
  cases e with
  | confWritten | statusWritten | controlWritten => simp [Effect.isOf, hkickoff, hstart, hstop] at hof
  | _ => exact ⟨rfl, rfl⟩

/-- Nor do they change what the daemon waits for. -/
lemma Edge.expectedStatus_eq {o : Outcomes} {ctx : Context} {event : FsmEvent} {r : ActionResult}
    (hedge : Edge p config o ctx event r) (hstart : isStartJob ctx.currentState event = false)
    (hstop : isAnyStopJob ctx.currentState event = false) :
    r.ctx.expectedStatus = ctx.expectedStatus := by
  cases hedge with
  | startJob hs => rw [hs] at hstart; cases hstart
  | resolvConfFailed hs => rw [hs] at hstop; cases hstop
  | stopJob hs => simp [isAnyStopJob, hs] at hstop
  | startJobFailed | updateFailed => simp [setExitCode_eq, ActionResult.enter]
  | resolvConfSet =>
    rcases updateDnsManager_cases p config o.update ctx with ⟨_, _, -, heq⟩ | ⟨_, _, -, -, heq⟩ <;>
      simp [heq, ActionResult.enter]
  | refresh | kickoff | ignored | abandon | startJobSubmitted | startJobDone | updateRunning | updated
  | stopRunning | stopJobSubmitted | quit =>
    simp [updateContext, setDynamicServers, ActionResult.enter]

/-- After a start job its `restart` is the last thing written, and the daemon waits for `ready`. -/
def Started (ctx : Context) (event : FsmEvent) (log : List Effect) : Prop :=
  isStarted ctx.currentState event = true →
    RestartLast log ∧ ctx.expectedStatus = some "ready"

lemma Started.edge {o : Outcomes} {ctx : Context} {event : FsmEvent} {log : List Effect}
    {r : ActionResult} (h : Started ctx event log) (hedge : Edge p config o ctx event r) :
    Started r.ctx r.event (log ++ .transitionMade ctx.currentState event :: r.effects) := by
  intro hstarted
  by_cases hstart : isStartJob ctx.currentState event = true
  · cases hedge with
    | startJob hs =>
      rcases setServiceStatus_cases "ready" "restart" o.startJob ctx with
        ⟨hevent, -⟩ | ⟨hevent, heffects⟩
      · simp [isStarted, ActionResult.enter, hevent] at hstarted
      · refine ⟨⟨log ++ [.transitionMade ctx.currentState .success, .statusWritten "pending"],
          [], ?_, untouched_nil⟩, ?_⟩
        · simp [ActionResult.enter, heffects]
        · simp [ActionResult.enter]
    | refresh hs => rcases hs with hs | hs <;> rw [hs] at hstart <;> cases hstart
    | kickoff hs | ignored hs | abandon hs | stopJob hs =>
      revert hs hstart
      cases ctx.currentState <;> cases event <;>
        simp [isStartJob, isKickoff, isIgnored, isAbandon, isStopJob]
    | startJobSubmitted hs | startJobDone hs | startJobFailed hs | updateRunning hs
    | resolvConfSet hs | resolvConfFailed hs | updated hs | updateFailed hs | stopRunning hs
    | stopJobSubmitted hs | quit hs =>
      rw [hs] at hstart
      cases hstart
  · rw [Bool.not_eq_true] at hstart
    obtain ⟨hbefore, hkickoff, hstop⟩ := isStarted_of_nextState hedge.nextState_eq hstart hstarted
    obtain ⟨hlast, hready⟩ := h hbefore
    exact ⟨hlast.append (hedge.untouched hkickoff hstart hstop),
      (hedge.expectedStatus_eq hstart hstop).trans hready⟩

/-- A change that keeps the state and writes none of the files. -/
lemma Started.keep {ctx ctx' : Context} {event event' : FsmEvent} {log l : List Effect}
    (h : Started ctx event log) (hstate : ctx'.currentState = ctx.currentState)
    (hexpected : ctx'.expectedStatus = ctx.expectedStatus) (hevent : event' ≠ .success)
    (hl : Untouched l) : Started ctx' event' (log ++ l) := by
  intro hstarted
  have hbefore : isStarted ctx.currentState event = true := by
    rw [hstate] at hstarted
    revert hstarted
    cases ctx.currentState <;> simp [isStarted, hevent]
  obtain ⟨hlast, hready⟩ := h hbefore
  exact ⟨hlast.append hl, hexpected.trans hready⟩

/-- Nothing but the event changes. -/
lemma Started.await {ctx : Context} {event event' : FsmEvent} {log : List Effect}
    (h : Started ctx event log) (hevent : event' ≠ .success) : Started ctx event' log := by
  have hkept := h.keep rfl rfl hevent untouched_nil
  rwa [List.append_nil] at hkept

/-- The last restart after every run of the daemon. -/
lemma started_run (is : List Input) :
    Started ((daemon p config).run is).ctx .none ((daemon p config).run is).log := by
  have hinitial : Started Daemon.initial.ctx .none Daemon.initial.log :=
    fun h => absurd h (by decide)
  refine invariant_of_micro_true (p := p) (d := .initial)
    (J := fun a => Started a.ctx a.event a.log) ?_ hinitial is
  intro a b h hstep
  cases hstep with
  | edge hok hedge => exact h.edge hedge
  | receive he hu => exact h.await (by rintro rfl; cases he)
  | skipped => exact h.await (by simp)
  | parsed | refused | replied | rejected | reloadReplied | nameLost =>
    exact h.keep rfl rfl (by simp) (by simp [Untouched, Effect.isSharedWrite, Effect.isServiceFile])

/-! ## What the helper loads -/

/-- The helper has loaded unbound.conf as it is and reported that, or is going to, or it has reported
that the cache has failed. -/
def Helper.Loads (files : SharedFiles) : Helper → Prop
  | .idle unbound =>
    (unbound = some files.conf ∧ files.status = "ready\n") ∨
      (unbound = none ∧ files.status = "fail\n")
  | .restarting _ | .stopped => True
  | .loaded unbound => unbound = files.conf
  | .stopping _ => False

lemma Helper.Loads.proceed {helper : Helper} {files : SharedFiles} (h : helper.Loads files) :
    (helper.step files .proceed).1.Loads (helper.step files .proceed).2 := by
  cases helper with
  | idle unbound => exact h
  | restarting unbound => cases unbound <;> trivial
  | stopped => rfl
  | loaded unbound => exact Or.inl ⟨congrArg some h, rfl⟩
  | stopping unbound => cases h

lemma Helper.Loads.fail {helper : Helper} {files : SharedFiles} (h : helper.Loads files) :
    (helper.step files .fail).1.Loads (helper.step files .fail).2 := by
  cases helper with
  | idle unbound =>
    cases unbound with
    | none => exact h
    | some conf => exact Or.inr ⟨rfl, rfl⟩
  | restarting unbound => cases unbound <;> trivial
  | stopped | loaded => exact Or.inr ⟨rfl, rfl⟩
  | stopping unbound => cases h

/-- If the last thing that the daemon has written for the helper is a restart, it is unread, or the
helper has taken it up. -/
def RestartHeeded (performed : List Effect) (files : SharedFiles) (helper : Helper) : Prop :=
  RestartLast performed →
    files.control = ["restart"] ∨ (files.control = [] ∧ helper.Loads files)

lemma RestartHeeded.perform {performed : List Effect} {files : SharedFiles} {helper : Helper}
    (h : RestartHeeded performed files helper) (e : Effect) :
    RestartHeeded (performed ++ [e]) (files.write .overwritten e) helper := by
  intro hlast
  rcases hlast.of_concat with rfl | ⟨hlast', hshared, hservice⟩
  · exact Or.inl rfl
  · have hfiles : files.write .overwritten e = files := by
      cases e with
      | confWritten | statusWritten => cases hshared
      | controlWritten => cases hservice
      | _ => rfl
    rw [hfiles]
    exact h hlast'

lemma RestartHeeded.help {performed : List Effect} {files : SharedFiles} {helper : Helper}
    (h : RestartHeeded performed files helper) (step : HelperStep) :
    RestartHeeded performed (helper.step files step).2 (helper.step files step).1 := by
  intro hlast
  rcases h hlast with hunread | ⟨hnone, hloads⟩
  · cases step with
    | takeUp merged =>
      rcases Helper.takeUp_single hunread merged with heq | ⟨unbound, -, heq⟩
      · rw [heq]
        exact Or.inl hunread
      · rw [heq]
        exact Or.inr ⟨rfl, trivial⟩
    | proceed =>
      rw [Helper.control_proceed]
      exact Or.inl hunread
    | fail =>
      rw [Helper.control_fail]
      exact Or.inl hunread
  · cases step with
    | takeUp merged =>
      rw [Helper.takeUp_nil hnone]
      exact Or.inr ⟨hnone, hloads⟩
    | proceed =>
      rw [Helper.control_proceed]
      exact Or.inr ⟨hnone, hloads.proceed⟩
    | fail =>
      rw [Helper.control_fail]
      exact Or.inr ⟨hnone, hloads.fail⟩

/-- The helper heeds the last restart in every run. -/
lemma starting_run (files : SharedFiles) (helper : Helper) (is : List WorldInput) :
    SeenThroughFiles p config RestartHeeded ((world p config .overwritten files helper).run is) := by
  refine seenThroughFiles_run (fun _ _ e _ _ _ _ h => h.perform e) (fun _ _ _ step h => h.help step)
    ?_ is
  rintro ⟨before, after, heq, -⟩
  simp at heq

/-- What is left when the restart has been done. -/
lemma loads_of_isFinished {w : World} (h : SeenThroughFiles p config RestartHeeded w)
    (hstarted : isStarted w.daemon.ctx.currentState .none = true) (hfinished : w.isFinished = true) :
    w.helper.Loads w.files ∧ w.daemon.ctx.expectedStatus = some "ready" := by
  obtain ⟨⟨is, hdaemon⟩, performed, hlog, hheeded⟩ := h
  obtain ⟨hwrites, hnone, -⟩ := World.isFinished_iff.mp hfinished
  have hrun := @started_run p config is
  rw [← hdaemon] at hrun
  obtain ⟨hlast, hready⟩ := hrun hstarted
  rw [hlog, hwrites, List.append_nil] at hlast
  rcases hheeded hlast with hunread | ⟨-, hloads⟩
  · rw [hnone] at hunread
    cases hunread
  · exact ⟨hloads, hready⟩

/-- In every interleaving of the daemon, which may be sent anything, with the helper, whose starts and
stops may fail: while the daemon waits for a start job or is running, whenever nothing is left to do,
either the cache runs with the unbound.conf that was written last and the status file says `ready`, or
it does not run and the status file says `fail`.  This holds also if the daemon has taken the report of
an earlier restart for the end of its last start job. -/
theorem restart_reaches_cache (p : Platform) (config : Config) (files : SharedFiles)
    (helper : Helper) (is : List WorldInput)
    (hstarted : ((world p config .overwritten files helper).run is).daemon.ctx.currentState =
        .waitingForStartJob ∨
      ((world p config .overwritten files helper).run is).daemon.ctx.currentState = .running)
    (hfinished : ((world p config .overwritten files helper).run is).isFinished = true) :
    (((world p config .overwritten files helper).run is).helper.unbound =
        some ((world p config .overwritten files helper).run is).files.conf ∧
      ((world p config .overwritten files helper).run is).files.status = "ready\n") ∨
    (((world p config .overwritten files helper).run is).helper.unbound = none ∧
      ((world p config .overwritten files helper).run is).files.status = "fail\n") := by
  have hstates : isStarted
      ((world p config .overwritten files helper).run is).daemon.ctx.currentState .none = true := by
    rcases hstarted with hs | hs <;> rw [hs] <;> rfl
  obtain ⟨hloads, -⟩ := loads_of_isFinished (starting_run files helper is) hstates hfinished
  obtain ⟨-, -, unbound, hidle⟩ := World.isFinished_iff.mp hfinished
  rw [hidle] at hloads ⊢
  exact hloads

/-- The daemon reads the report of the first restart after it has asked for a second one, and is
running while the cache has loaded the first unbound.conf.  In the end it has loaded the second
one. -/
theorem restart_reaches_cache_after_stale_ready :
    let is := WorldInput.startedAndLoaded ++ WorldInput.performed .reloadCall rfl 8 ++
      [.helper .proceed, .statusChanged .changesDoneHint true .allOk] ++
      List.replicate 14 .perform ++
      [.helper (.takeUp 0), .helper .proceed, .helper .proceed, .helper .proceed]
    let w := (world .plain .plain .overwritten .blank (.idle none)).run is
    w.daemon.ctx.currentState = .running ∧ w.files.conf.version = 2 ∧ w.helper.unbound.isSome = true ∧
      ((w.helper.unbound = some w.files.conf ∧ w.files.status = "ready\n") ∨
        (w.helper.unbound = none ∧ w.files.status = "fail\n")) := by
  refine ⟨by decide, by decide, by decide, ?_⟩
  exact restart_reaches_cache .plain .plain .blank (.idle none) _ (Or.inr (by decide)) (by decide)

/-! ## Operations that succeed -/

/-- Outcomes with which a start job is completed: every operation succeeds, and one of the CA files of
the configuration is readable. -/
structure Outcomes.Succeeds (config : Config) (readable : String → Bool) (o : Outcomes) : Prop where
  monitor : o.kickoff.monitorCreated = true
  conf : (o.kickoff.confOpens && o.kickoff.listenWritten && o.kickoff.zonesWritten &&
    o.kickoff.rpzWritten && o.kickoff.confClean && o.kickoff.confCloses) = true
  startJob : (o.startJob.statusWritten && o.startJob.controlWritten) = true
  resolvConf : (o.resolvConf.originalContent.isSome && o.resolvConf.opens && o.resolvConf.clean &&
    o.resolvConf.closes) = true
  commands : ∀ command, o.update.commandOk command = true
  kickoffReadable : o.kickoff.readable = readable
  updateReadable : o.update.readable = readable
  ca : ((configuredCas config).find? readable).isSome = true

section Succeeds

variable {readable : String → Bool} {o : Outcomes} (ho : o.Succeeds config readable)
include ho

/-- There is an effective CA. -/
lemma exists_ca_of_succeeds (order : Enumeration ServerEntry) (table : Option ServerTable)
    (mode : Mode) : ∃ ca, getEffectiveCa order readable table mode config = some ca := by
  obtain ⟨ca, hca⟩ := Option.isSome_iff_exists.mp ho.ca
  unfold getEffectiveCa
  split
  · exact ⟨_, rfl⟩
  · exact ⟨ca, hca⟩

/-- resolv.conf is written. -/
lemma setResolvConf_of_succeeds {ctx : Context} {table : ServerTable}
    (htable : ctx.currentDomainToServers = some table) :
    (setResolvConf p config o.resolvConf ctx).event = .success := by
  have hresolv := ho.resolvConf
  simp only [Bool.and_eq_true] at hresolv
  obtain ⟨⟨⟨hcontent, hopens⟩, hclean⟩, hcloses⟩ := hresolv
  obtain ⟨content, hcontent⟩ := Option.isSome_iff_exists.mp hcontent
  unfold setResolvConf writeResolvConf
  cases ctx.resolvConfBackup <;>
    simp [hcontent, writeResolvConfFile, hopens, hclean, hcloses, htable]

/-- unbound.conf is written, with the effective CA. -/
lemma kickoff_of_succeeds (ctx : Context) :
    (fsmStartingEventKickoff p config o.kickoff ctx).event = .success ∧
      caAfterKickoff p config o.kickoff ctx =
        getEffectiveCa o.kickoff.caOrder readable (updateContext p config ctx).currentDomainToServers
          ctx.resolutionMode config := by
  have hconf := ho.conf
  simp only [Bool.and_eq_true] at hconf
  obtain ⟨⟨⟨⟨⟨hopens, hlisten⟩, hzones⟩, hrpz⟩, hclean⟩, hcloses⟩ := hconf
  obtain ⟨ca, hca⟩ := exists_ca_of_succeeds ho o.kickoff.caOrder (updateContext p config ctx).currentDomainToServers
    ctx.resolutionMode
  have hmode : (updateContext p config ctx).resolutionMode = ctx.resolutionMode := rfl
  constructor
  · simp [fsmStartingEventKickoff, writeConfiguration, ho.monitor, ho.kickoffReadable, hopens, hlisten,
      hzones, hrpz, hclean, hcloses, hmode, hca]
  · simp [caAfterKickoff, ho.monitor, ho.kickoffReadable, hopens, hlisten, hca]

/-- The start job is submitted. -/
lemma setServiceStatus_of_succeeds (ctx : Context) :
    (setServiceStatus "ready" "restart" o.startJob ctx).event = .success := by
  have hjob := ho.startJob
  simp only [Bool.and_eq_true] at hjob
  simp [setServiceStatus, hjob.1, hjob.2]

/-- The running cache is updated, or a reload is asked for because of another CA. -/
lemma updateDnsManager_of_succeeds {ctx : Context} {table : ServerTable} {ca : String}
    (htable : ctx.currentDomainToServers = some table) (hca : ctx.effectiveCa = some ca) :
    ∃ new, getEffectiveCa o.update.caOrder readable
        (some (usedServersTable o.update.tableOrder table ctx.resolutionMode)) ctx.resolutionMode
        config = some new ∧
      ((new = ca ∧ (updateDnsManager p config o.update ctx).event = .success) ∨
        (new ≠ ca ∧ updateDnsManager p config o.update ctx = ⟨ctx, [], .reload⟩)) := by
  obtain ⟨new, hnew⟩ := exists_ca_of_succeeds ho o.update.caOrder
    (some (usedServersTable o.update.tableOrder table ctx.resolutionMode)) ctx.resolutionMode
  refine ⟨new, hnew, ?_⟩
  have hexecute : ∀ commands, (executeCommands o.update.commandOk commands).1 = true := by
    intro commands
    rw [executeCommands_fst, List.all_eq_true]
    exact fun command _ => ho.commands command
  by_cases hsame : new = ca
  · refine Or.inl ⟨hsame, ?_⟩
    simp [updateDnsManager, update, htable, ho.updateReadable, hnew, hca, hsame, applyUpdate,
      hexecute]
  · refine Or.inr ⟨hsame, ?_⟩
    simp [updateDnsManager, update, htable, ho.updateReadable, hnew, hca, hsame]

end Succeeds

/-! ## The end of a start job -/

/-- The loop of `state_transition` ends within `n` iterations, in a given context. -/
def LoopEnds (p : Platform) (config : Config) (o : Outcomes) (n : ℕ) (ctx : Context)
    (event : FsmEvent) (ctx' : Context) : Prop :=
  ∀ log, ∃ log', stateTransitionLoop p config o n ⟨ctx, event, log⟩ =
    some ⟨true, ⟨ctx', .none, log'⟩⟩

section LoopEnds

variable {o : Outcomes} {n : ℕ} {ctx ctx₁ ctx' : Context} {event event₁ : FsmEvent}
  {effects : List Effect}

/-- The last action yields no event. -/
lemma loopEnds_last (h : transitionAction p config o ctx event = some ⟨ctx', effects, .none⟩) :
    LoopEnds p config o (n + 1) ctx event ctx' := by
  intro log
  simp [stateTransitionLoop, doWhile, transition, h, Machine.hasEvent]

/-- The loop goes on with the event that an action yields. -/
lemma LoopEnds.next (h : transitionAction p config o ctx event = some ⟨ctx₁, effects, event₁⟩)
    (he : event₁ ≠ .none) (hrest : LoopEnds p config o n ctx₁ event₁ ctx') :
    LoopEnds p config o (n + 1) ctx event ctx' := by
  intro log
  obtain ⟨log', hlog'⟩ := hrest (log ++ .transitionMade ctx.currentState event :: effects)
  refine ⟨log', ?_⟩
  rw [← hlog']
  simp [stateTransitionLoop, doWhile, transition, h, Machine.hasEvent, he]

lemma LoopEnds.stateTransition (h : LoopEnds p config o maxIterations ctx event ctx')
    (log : List Effect) : (stateTransition p config o ctx event log).state.ctx = ctx' := by
  obtain ⟨log', hlog'⟩ := h log
  rw [Dnsconfd.stateTransition, hlog']
  rfl

/-- After an update the daemon is running. -/
lemma loopEnds_updated (hs : ctx.currentState = .updatingDnsManager) :
    LoopEnds p config o (n + 1) ctx .success { ctx with currentState := .running } := by
  have hrunning : transitionAction p config o ctx .success =
      some ⟨{ ctx with currentState := .running }, [], .none⟩ := by
    simp only [transitionAction, hs]
    rfl
  exact loopEnds_last hrunning

/-- If a reload is asked for, the cache is configured again and restarted. -/
lemma loopEnds_reload {readable : String → Bool} (ho : o.Succeeds config readable)
    (hs : ctx.currentState = .updatingDnsManager) :
    LoopEnds p config o (n + 3) ctx .reload
      { updateContext p config ctx with
        effectiveCa := getEffectiveCa o.kickoff.caOrder readable
          (updateContext p config ctx).currentDomainToServers ctx.resolutionMode config
        expectedStatus := some "ready"
        currentState := .waitingForStartJob } := by
  obtain ⟨hkickoff, hca⟩ := @kickoff_of_succeeds p config readable o ho ctx
  let ctx₁ : Context :=
    { (fsmStartingEventKickoff p config o.kickoff ctx).ctx with
      currentState := .configuringDnsManager }
  let ctx₂ : Context :=
    { (setServiceStatus "ready" "restart" o.startJob ctx₁).ctx with
      currentState := .submittingStartJob }
  have hconfigured : transitionAction p config o ctx .reload = some ⟨ctx₁, .notified "RELOADING=1\n" ::
      (fsmStartingEventKickoff p config o.kickoff ctx).effects, .success⟩ := by
    simp only [transitionAction, hs, notifyReloading, ActionResult.enter, hkickoff, ctx₁]
  have hsubmitted : transitionAction p config o ctx₁ .success =
      some ((setServiceStatus "ready" "restart" o.startJob ctx₁).enter .submittingStartJob) := rfl
  rw [ActionResult.enter, setServiceStatus_of_succeeds ho ctx₁] at hsubmitted
  have hwaiting : transitionAction p config o ctx₂ .success =
      some ⟨{ ctx₂ with currentState := .waitingForStartJob }, [], .none⟩ := rfl
  have hends : LoopEnds p config o (n + 3) ctx .reload
      { ctx₂ with currentState := .waitingForStartJob } :=
    .next hconfigured (by simp) (.next hsubmitted (by simp) (loopEnds_last hwaiting))
  simpa [ctx₂, ctx₁, hca] using hends

end LoopEnds

/-- What is left of the context when the cache is restarted for another CA. -/
structure RestartsForCa (p : Platform) (config : Config) (readable : String → Bool) (o : Outcomes)
    (ctx ctx' : Context) : Prop where
  waiting : ctx'.currentState = .waitingForStartJob
  mode : ctx'.resolutionMode = ctx.resolutionMode
  dynamic : ctx'.currentDynamicServers = ctx.currentDynamicServers
  ca : ctx'.effectiveCa = getEffectiveCa o.kickoff.caOrder readable ctx'.currentDomainToServers
    ctx.resolutionMode config

/-- When a start job is done and the operations succeed, the daemon is running, or it restarts the
cache for another CA. -/
lemma stateTransition_startJobDone {readable : String → Bool} {o : Outcomes}
    (ho : o.Succeeds config readable) {ctx : Context} {table : ServerTable} {ca : String}
    (hs : ctx.currentState = .waitingForStartJob)
    (htable : ctx.currentDomainToServers = some table) (hca : ctx.effectiveCa = some ca)
    (log : List Effect) :
    ∃ new, getEffectiveCa o.update.caOrder readable
        (some (usedServersTable o.update.tableOrder table ctx.resolutionMode)) ctx.resolutionMode
        config = some new ∧
      ((stateTransition p config o ctx .jobSuccess log).state.ctx.currentState = .running ∨
        (new ≠ ca ∧ RestartsForCa p config readable o ctx
          (stateTransition p config o ctx .jobSuccess log).state.ctx)) := by
  let ctx₁ : Context :=
    { (setResolvConf p config o.resolvConf ctx).ctx with currentState := .settingResolvConf }
  have htable₁ : ctx₁.currentDomainToServers = some table := by simp [ctx₁, htable]
  have hca₁ : ctx₁.effectiveCa = some ca := by simp [ctx₁, hca]
  have hmode₁ : ctx₁.resolutionMode = ctx.resolutionMode := by simp [ctx₁]
  have hwritten : transitionAction p config o ctx .jobSuccess = some ⟨ctx₁,
      .startJobDone :: (setResolvConf p config o.resolvConf ctx).effects, .success⟩ := by
    simp only [transitionAction, hs, ActionResult.enter, setResolvConf_of_succeeds ho htable]
    rfl
  have hupdated : transitionAction p config o ctx₁ .success =
      some ((updateDnsManager p config o.update ctx₁).enter .updatingDnsManager) := rfl
  obtain ⟨new, hnew, ⟨-, hevent⟩ | ⟨hne, hreload⟩⟩ :=
    @updateDnsManager_of_succeeds p config readable o ho ctx₁ table ca htable₁ hca₁
  · rw [ActionResult.enter, hevent] at hupdated
    rw [hmode₁] at hnew
    have hends : LoopEnds p config o maxIterations ctx .jobSuccess _ :=
      .next hwritten (by simp) (.next hupdated (by simp) (loopEnds_updated rfl))
    refine ⟨new, hnew, Or.inl ?_⟩
    rw [hends.stateTransition]
  · rw [ActionResult.enter, hreload] at hupdated
    rw [hmode₁] at hnew
    have hends : LoopEnds p config o maxIterations ctx .jobSuccess _ :=
      .next hwritten (by simp) (.next hupdated (by simp) (loopEnds_reload ho rfl))
    refine ⟨new, hnew, Or.inr ⟨hne, ?_⟩⟩
    rw [hends.stateTransition]
    constructor <;> simp [updateContext, ctx₁]

/-! ## A restart that does not fail -/

/-- The cache runs, or the helper is about to start it. -/
def Helper.willRun : Helper → Bool
  | .idle unbound => unbound.isSome
  | .stopping _ => false
  | _ => true

/-- A restart is still to be written or to be taken up, or the cache runs or is being started. -/
def World.willRun (w : World) : Bool :=
  (commandsOf w.writes).contains "restart" || w.files.control = ["restart"] ||
    (w.files.control.isEmpty && w.helper.willRun)

lemma World.willRun_iff {w : World} :
    w.willRun = true ↔ "restart" ∈ commandsOf w.writes ∨ w.files.control = ["restart"] ∨
      (w.files.control = [] ∧ w.helper.willRun = true) := by
  simp [World.willRun, or_assoc]

lemma Helper.willRun_proceed {helper : Helper} (h : helper.willRun = true) (files : SharedFiles) :
    (helper.step files .proceed).1.willRun = true := by
  cases helper with
  | idle unbound => exact h
  | restarting unbound => cases unbound <;> rfl
  | stopping unbound => cases h
  | stopped | loaded => rfl

/-- The effects that are still to be performed contain no other command than restarts. -/
def OnlyRestartsLeft (w : World) : Prop :=
  ∀ command ∈ commandsOf w.writes, command = "restart"

/-- The helper makes a step without a failure. -/
lemma World.willRun_help {w : World} (h : w.willRun = true) {step : HelperStep}
    (hstep : step ≠ .fail) : (w.help step).willRun = true := by
  rw [World.willRun_iff] at h ⊢
  rcases h with hleft | hunread | ⟨hnone, hwill⟩
  · exact Or.inl hleft
  · refine Or.inr ?_
    unfold World.help
    cases step with
    | takeUp merged =>
      rcases Helper.takeUp_single hunread merged with heq | ⟨unbound, -, heq⟩ <;> rw [heq]
      · exact Or.inl hunread
      · exact Or.inr ⟨rfl, rfl⟩
    | proceed =>
      dsimp only
      rw [Helper.control_proceed]
      exact Or.inl hunread
    | fail => exact absurd rfl hstep
  · refine Or.inr (Or.inr ?_)
    unfold World.help
    cases step with
    | takeUp merged =>
      rw [Helper.takeUp_nil hnone]
      exact ⟨hnone, hwill⟩
    | proceed =>
      dsimp only
      rw [Helper.control_proceed]
      exact ⟨hnone, Helper.willRun_proceed hwill w.files⟩
    | fail => exact absurd rfl hstep

/-- The daemon performs an effect. -/
lemma World.willRun_perform {w : World} (hleft : OnlyRestartsLeft w) (h : w.willRun = true) :
    OnlyRestartsLeft (w.perform .overwritten) ∧ (w.perform .overwritten).willRun = true := by
  obtain ⟨d, writes, shared, helper⟩ := w
  cases writes with
  | nil => exact ⟨hleft, h⟩
  | cons e rest =>
    have hcons : commandsOf (e :: rest) = commandsOf [e] ++ commandsOf rest := commandsOf_append [e] rest
    have hrest : OnlyRestartsLeft ⟨d, rest, shared.write .overwritten e, helper⟩ := by
      intro command hcommand
      refine hleft command ?_
      change command ∈ commandsOf (e :: rest)
      rw [hcons]
      exact List.mem_append_right _ hcommand
    refine ⟨hrest, ?_⟩
    rw [World.willRun_iff] at h ⊢
    change "restart" ∈ commandsOf rest ∨ (shared.write .overwritten e).control = ["restart"] ∨ _
    by_cases he : ∃ command, e = .controlWritten command
    · obtain ⟨command, rfl⟩ := he
      obtain rfl : command = "restart" := hleft command List.mem_cons_self
      exact Or.inr (Or.inl rfl)
    · have hne : ∀ command, e ≠ .controlWritten command := fun command heq => he ⟨command, heq⟩
      have hnone : commandsOf [e] = [] := by
        cases e with
        | controlWritten command => exact absurd rfl (hne command)
        | _ => rfl
      change "restart" ∈ commandsOf (e :: rest) ∨ _ at h
      rw [hcons, hnone, List.nil_append] at h
      change _ ∨ _ ∨ ((shared.write .overwritten e).control = [] ∧ helper.willRun = true)
      rw [SharedFiles.control_write hne]
      exact h

lemma willRun_runFrom {S : System World WorldInput} (hS : S.step = World.step p config .overwritten)
    {w : World} (hleft : OnlyRestartsLeft w) (h : w.willRun = true) {js : List WorldInput}
    (hjs : ∀ j ∈ js, j.isDispatch = false ∧ j.isFailure = false) :
    (S.runFrom w js).willRun = true := by
  induction js generalizing w with
  | nil => exact h
  | cons j js ih =>
    obtain ⟨hj, hfailure⟩ := hjs j List.mem_cons_self
    have hcons : S.runFrom w (j :: js) = S.runFrom (w.step p config .overwritten j) js := by
      rw [← hS]
      rfl
    have hstep : OnlyRestartsLeft (w.step p config .overwritten j) ∧
        (w.step p config .overwritten j).willRun = true := by
      cases j with
      | dispatched | statusChanged => cases hj
      | perform => exact World.willRun_perform hleft h
      | helper step => exact ⟨hleft, World.willRun_help h (by rintro rfl; cases hfailure)⟩
    rw [hcons]
    exact ih hstep.1 hstep.2 fun j' hj' => hjs j' (List.mem_cons_of_mem _ hj')

section Way

variable {files : SharedFiles} {helper : Helper}

/-- In the states that follow a start job the daemon has written no other commands than restarts. -/
lemma onlyRestartsLeft_of_started {is : List WorldInput}
    (hstarted : isStarted
      ((world p config .overwritten files helper).run is).daemon.ctx.currentState .none = true) :
    OnlyRestartsLeft ((world p config .overwritten files helper).run is) := by
  obtain ⟨⟨is', hdaemon⟩, performed, hlog, -⟩ := @starting_run p config files helper is
  intro command hcommand
  have hmem : command ∈ commandsOf ((world p config .overwritten files helper).run is).daemon.log := by
    rw [hlog, commandsOf_append]
    exact List.mem_append_right _ hcommand
  rw [hdaemon] at hmem hstarted
  rcases @orderly_run p config is' with ⟨-, n, hcommands, -⟩ | ⟨hs, -⟩
  · rw [hcommands] at hmem
    exact List.eq_of_mem_replicate hmem
  · generalize ((daemon p config).run is').ctx.currentState = state at hs hstarted
    revert hs hstarted
    cases state <;> simp [isStarted, FsmState.isAfterStopJob]

/-- Without a failure the daemon and the helper get to a point where the cache has loaded the
unbound.conf written last. -/
lemma proceeds_loaded {is : List WorldInput}
    (hstarted : isStarted
      ((world p config .overwritten files helper).run is).daemon.ctx.currentState .none = true)
    (hwill : ((world p config .overwritten files helper).run is).willRun = true) :
    ∃ js, (∀ j ∈ js, j.isDispatch = false ∧ j.isFailure = false) ∧
      let w := (world p config .overwritten files helper).run (is ++ js)
      w.daemon = ((world p config .overwritten files helper).run is).daemon ∧
        w.isFinished = true ∧ w.helper = .idle (some w.files.conf) ∧ w.files.status = "ready\n" ∧
        w.daemon.ctx.expectedStatus = some "ready" := by
  obtain ⟨w', ⟨js, hjs, hrun⟩, hdaemon, hfinished⟩ := @proceeds_finished p config .overwritten files
    helper ((world p config .overwritten files helper).run is)
  have hwill' := willRun_runFrom (S := world p config .overwritten files helper) rfl
    (onlyRestartsLeft_of_started hstarted) hwill hjs
  rw [hrun] at hwill'
  rw [← System.run_append] at hrun
  refine ⟨js, hjs, ?_⟩
  have hstarting := @starting_run p config files helper (is ++ js)
  rw [hrun] at hstarting
  dsimp only
  rw [hrun]
  obtain ⟨hloads, hready⟩ := loads_of_isFinished hstarting (by rw [hdaemon]; exact hstarted) hfinished
  obtain ⟨hwrites, hnone, unbound, hidle⟩ := World.isFinished_iff.mp hfinished
  refine ⟨hdaemon, hfinished, ?_⟩
  rw [World.willRun_iff, hwrites, hnone, hidle] at hwill'
  rw [hidle] at hloads ⊢
  rcases hloads with ⟨rfl, hstatus⟩ | ⟨rfl, -⟩
  · exact ⟨rfl, hstatus, hready⟩
  · rcases hwill' with hleft | hunread | ⟨-, hrun'⟩
    · cases hleft
    · cases hunread
    · cases hrun'

end Way

/-! ## The way to RUNNING -/

/-- All that is dispatched to the daemon are changes of the status file, at most `n` of them. -/
structure OnlyReads (o : Outcomes) (n : ℕ) (is : List WorldInput) : Prop where
  status : ∀ i ∈ is, i.isDispatch = true → i = .statusChanged .changesDoneHint true o
  count : is.countP WorldInput.isDispatch ≤ n

section Way

variable {files : SharedFiles} {helper : Helper} {readable : String → Bool} {o : Outcomes}

lemma onlyReads_of_not_isDispatch {is : List WorldInput} (h : ∀ i ∈ is, i.isDispatch = false) :
    OnlyReads o 0 is where
  status i hi hdispatch := by
    rw [h i hi] at hdispatch
    cases hdispatch
  count := (List.countP_eq_zero.mpr fun i hi => by simp [h i hi]).le

lemma onlyReads_status : OnlyReads o 1 [.statusChanged .changesDoneHint true o] where
  status _ hi _ := List.mem_singleton.mp hi
  count := List.countP_le_length

lemma OnlyReads.append {n n' : ℕ} {is js : List WorldInput} (h : OnlyReads o n is)
    (h' : OnlyReads o n' js) : OnlyReads o (n + n') (is ++ js) where
  status i hi := by
    rcases List.mem_append.mp hi with hi | hi
    · exact h.status i hi
    · exact h'.status i hi
  count := by
    rw [List.countP_append]
    exact Nat.add_le_add h.count h'.count

lemma OnlyReads.mono {n n' : ℕ} {is : List WorldInput} (h : OnlyReads o n is) (hn : n ≤ n') :
    OnlyReads o n' is :=
  ⟨h.status, h.count.trans hn⟩

/-- The daemon and the helper finish, and the daemon reads the status file: it is running then, or it
restarts the cache for another CA. -/
lemma start_round (hstatic : ∀ s ∈ config.staticServers, s.WellFormed)
    (ho : o.Succeeds config readable) {is : List WorldInput}
    (hwaiting : ((world p config .overwritten files helper).run is).daemon.ctx.currentState =
      .waitingForStartJob)
    (hwill : ((world p config .overwritten files helper).run is).willRun = true) :
    ∃ js, OnlyReads o 1 js ∧
      ((world p config .overwritten files helper).run (is ++ js)).willRun = true ∧
      let ctx := ((world p config .overwritten files helper).run is).daemon.ctx
      let ctx' := ((world p config .overwritten files helper).run (is ++ js)).daemon.ctx
      ∃ table ca new, ctx.currentDomainToServers = some table ∧ ctx.effectiveCa = some ca ∧
        getEffectiveCa o.update.caOrder readable
          (some (usedServersTable o.update.tableOrder table ctx.resolutionMode)) ctx.resolutionMode
          config = some new ∧
        (ctx'.currentState = .running ∨ (new ≠ ca ∧ RestartsForCa p config readable o ctx ctx')) := by
  have hstarted : isStarted
      ((world p config .overwritten files helper).run is).daemon.ctx.currentState .none = true := by
    rw [hwaiting]
    rfl
  obtain ⟨js, hjs, hdaemon, hfinished, hup, hstatus, hexpected⟩ := proceeds_loaded hstarted hwill
  obtain ⟨⟨is', hreached⟩, -⟩ := @starting_run p config files helper (is ++ js)
  have hrun : (world p config .overwritten files helper).run
      (is ++ (js ++ [.statusChanged .changesDoneHint true o])) =
      ((world p config .overwritten files helper).run (is ++ js)).step p config .overwritten
        (.statusChanged .changesDoneHint true o) := by
    rw [← List.append_assoc, System.run_append]
    rfl
  refine ⟨js ++ [.statusChanged .changesDoneHint true o],
    (onlyReads_of_not_isDispatch fun j hj => (hjs j hj).1).append onlyReads_status, ?_⟩
  dsimp only
  rw [hrun]
  generalize (world p config .overwritten files helper).run (is ++ js) = w' at *
  rw [← hdaemon] at hwaiting ⊢
  obtain ⟨hwrites, hnone, -⟩ := World.isFinished_iff.mp hfinished
  -- the table of servers and the CA are set
  have hbacked := (@backed_run p config hstatic is').2
  rw [← hreached] at hbacked
  have hconfigured : isConfigured w'.daemon.ctx.currentState .none = true := by
    rw [hwaiting]
    rfl
  obtain ⟨table, htable⟩ := Option.isSome_iff_exists.mp (hbacked.provided.table hconfigured)
  obtain ⟨ca, hca⟩ := Option.isSome_iff_exists.mp (hbacked.provided.ca hconfigured)
  obtain ⟨new, hnew, hends⟩ :=
    @stateTransition_startJobDone p config readable o ho w'.daemon.ctx table ca hwaiting htable hca
      w'.daemon.log
  have hobserve : observe w'.daemon.ctx.expectedStatus .changesDoneHint (w'.content true) =
      some "done" := by
    rw [hexpected, World.content, hstatus]
    decide
  rw [step_statusChanged hwrites hobserve]
  refine ⟨?_, table, ca, new, htable, hca, hnew, hends⟩
  -- the helper is as it was, with the cache running
  rw [World.willRun_iff]
  refine Or.inr (Or.inr ⟨hnone, ?_⟩)
  dsimp only
  rw [hup]
  rfl

/-- A daemon that is running and its helper finish. -/
lemma running_finishes {is : List WorldInput}
    (hrunning : ((world p config .overwritten files helper).run is).daemon.ctx.currentState = .running)
    (hwill : ((world p config .overwritten files helper).run is).willRun = true) :
    ∃ js, OnlyReads o 0 js ∧
      let w := (world p config .overwritten files helper).run (is ++ js)
      w.daemon.ctx.currentState = .running ∧ w.isFinished = true ∧
        w.helper.unbound = some w.files.conf := by
  have hstarted : isStarted
      ((world p config .overwritten files helper).run is).daemon.ctx.currentState .none = true := by
    rw [hrunning]
    rfl
  obtain ⟨js, hjs, hdaemon, hfinished, hup, -⟩ := proceeds_loaded hstarted hwill
  refine ⟨js, onlyReads_of_not_isDispatch fun j hj => (hjs j hj).1, ?_, hfinished, ?_⟩
  · rw [hdaemon, hrunning]
  · rw [hup]
    rfl

/-- While the daemon waits for a start job, its table is made from the static servers and those in
use. -/
lemma table_of_waiting {is : List WorldInput}
    (hwaiting : ((world p config .overwritten files helper).run is).daemon.ctx.currentState =
      .waitingForStartJob) :
    ((world p config .overwritten files helper).run is).daemon.ctx.currentDomainToServers =
      serverListToHashTable p (config.staticServers ++
        ((world p config .overwritten files helper).run is).daemon.ctx.currentDynamicServers) := by
  obtain ⟨⟨is', hreached⟩, -⟩ := @starting_run p config files helper is
  rw [hreached] at hwaiting ⊢
  exact (applied_run is').1.table (by
    change ((daemon p config).run is').ctx.currentState.isConfigured = true
    rw [hwaiting]
    rfl)

/-- With a stable CA the daemon gets to RUNNING, after one more restart at most. -/
lemma start_succeeds (hstatic : ∀ s ∈ config.staticServers, s.WellFormed)
    (ho : o.Succeeds config readable) {is : List WorldInput}
    (hwaiting : ((world p config .overwritten files helper).run is).daemon.ctx.currentState =
      .waitingForStartJob)
    (hstable : ∀ table ∈
        ((world p config .overwritten files helper).run is).daemon.ctx.currentDomainToServers,
      CaStable config readable
        ((world p config .overwritten files helper).run is).daemon.ctx.resolutionMode table)
    (hwill : ((world p config .overwritten files helper).run is).willRun = true) :
    ∃ js, OnlyReads o 2 js ∧
      let w := (world p config .overwritten files helper).run (is ++ js)
      w.daemon.ctx.currentState = .running ∧ w.isFinished = true ∧
        w.helper.unbound = some w.files.conf := by
  -- one round leads to RUNNING or to a restart for another CA
  obtain ⟨js, hjs, hwill', table, ca, new, htable, -, -, hround⟩ :=
    start_round hstatic ho hwaiting hwill
  rcases hround with hrunning | ⟨-, hrestarts⟩
  · obtain ⟨ks, hks, hdone⟩ := @running_finishes p config files helper o _ hrunning hwill'
    rw [List.append_assoc] at hdone
    exact ⟨js ++ ks, (hjs.append hks).mono (by omega), hdone⟩
  -- after that restart the CA is the one that `update` finds
  obtain ⟨js', hjs', hwill'', table', ca', new', htable', hca', hnew', hround'⟩ :=
    start_round hstatic ho hrestarts.waiting hwill'
  have hsame : table' = table := by
    have htables := table_of_waiting hrestarts.waiting
    rw [hrestarts.dynamic, ← table_of_waiting hwaiting, htable, htable'] at htables
    exact Option.some.inj htables
  have hca : ca' = new' := by
    have hwritten := hrestarts.ca
    rw [htable', hca', hsame] at hwritten
    rw [hsame, hrestarts.mode] at hnew'
    exact ((hstable table htable).eq hwritten.symm hnew').symm
  rcases hround' with hrunning | ⟨hne, -⟩
  · obtain ⟨ks, hks, hdone⟩ := @running_finishes p config files helper o _ hrunning hwill''
    rw [List.append_assoc, List.append_assoc] at hdone
    exact ⟨js ++ (js' ++ ks), (hjs.append (hjs'.append hks)).mono (by omega), hdone⟩
  · exact absurd hca.symm hne

end Way

/-! ## A restart that has failed -/

/-- The failure of a start job ends the main loop. -/
lemma stateTransition_startJobFailed (o : Outcomes) {ctx : Context} (log : List Effect)
    (hs : ctx.currentState = .waitingForStartJob) :
    stateTransition p config o ctx .jobFailure log =
      ⟨true, ⟨{ setExitCode .serviceFailure ctx with currentState := .stopping }, .none, log ++
        [.transitionMade .waitingForStartJob .jobFailure, .transitionMade .stopping .stop,
          .mainLoopQuit]⟩⟩ := by
  simp [stateTransition, stateTransitionLoop, maxIterations, doWhile, transition, transitionAction,
    ActionResult.enter, Machine.hasEvent, hs]

/-- The daemon waits for a start job after which the cache has failed. -/
structure StartFailed (w : World) : Prop where
  waiting : w.daemon.ctx.currentState = .waitingForStartJob
  expected : w.daemon.ctx.expectedStatus = some "ready"
  quiet : Hushed w.writes
  control : w.files.control = []
  status : w.files.status = "fail\n"
  helper : w.helper = .idle none

/-- If no restart is left and the cache does not run, it has failed. -/
lemma startFailed_of_not_willRun {w : World} (h : SeenThroughFiles p config RestartHeeded w)
    (hwaiting : w.daemon.ctx.currentState = .waitingForStartJob) (hwill : w.willRun = false) :
    StartFailed w := by
  have hnot : ¬("restart" ∈ commandsOf w.writes ∨ w.files.control = ["restart"] ∨
      (w.files.control = [] ∧ w.helper.willRun = true)) := by
    rw [← World.willRun_iff, hwill]
    decide
  simp only [not_or] at hnot
  obtain ⟨hleft, hunread, hrun⟩ := hnot
  obtain ⟨⟨is, hdaemon⟩, performed, hlog, hheeded⟩ := h
  have hstarted := @started_run p config is
  rw [← hdaemon] at hstarted
  obtain ⟨hlast, hready⟩ := hstarted (by rw [hwaiting]; rfl)
  rw [hlog] at hlast
  obtain ⟨hperformed, huntouched⟩ := hlast.of_append hleft
  obtain ⟨hnone, hloads⟩ := (hheeded hperformed).resolve_left hunread
  have hdown : w.helper.willRun = false := by
    rw [← Bool.not_eq_true]
    exact fun hw => hrun ⟨hnone, hw⟩
  obtain ⟨d, writes, shared, helper⟩ := w
  cases helper with
  | idle unbound =>
    cases unbound with
    | none =>
      rcases hloads with ⟨heq, -⟩ | ⟨-, hstatus⟩
      · cases heq
      · exact ⟨hwaiting, hready, fun e he => (huntouched e he).2, hnone, hstatus, rfl⟩
    | some conf => cases hdown
  | stopping unbound => cases hloads
  | restarting | stopped | loaded => cases hdown

/-- Without being sent anything the daemon stays as it is, and the report remains. -/
lemma StartFailed.step {w : World} (h : StartFailed w) (kind : ControlFile) {i : WorldInput}
    (hi : i.isDispatch = false) :
    StartFailed (w.step p config kind i) ∧ (w.step p config kind i).daemon = w.daemon := by
  obtain ⟨d, writes, shared, helper⟩ := w
  cases i with
  | dispatched | statusChanged => cases hi
  | perform =>
    cases writes with
    | nil => exact ⟨h, rfl⟩
    | cons e rest =>
      have he : e.isServiceFile = false := h.quiet e List.mem_cons_self
      have hfiles := SharedFiles.write_of_not_isServiceFile shared kind he
      exact ⟨⟨h.waiting, h.expected, fun e' he' => h.quiet e' (List.mem_cons_of_mem _ he'),
        hfiles.1.trans h.control, hfiles.2.trans h.status, h.helper⟩, rfl⟩
  | helper step =>
    have hidle : helper = .idle none := h.helper
    have hcontrol : shared.control = [] := h.control
    have hnothing : helper.step shared step = (helper, shared) := by
      cases step with
      | takeUp merged => exact Helper.takeUp_nil hcontrol merged
      | proceed | fail =>
        rw [hidle]
        rfl
    simp only [World.step, World.help, hnothing]
    exact ⟨h, trivial⟩

lemma StartFailed.runFrom {S : System World WorldInput} {kind : ControlFile}
    (hS : S.step = World.step p config kind) {w : World} (h : StartFailed w) {js : List WorldInput}
    (hjs : ∀ j ∈ js, j.isDispatch = false) :
    StartFailed (S.runFrom w js) ∧ (S.runFrom w js).daemon = w.daemon := by
  induction js generalizing w with
  | nil => exact ⟨h, rfl⟩
  | cons j js ih =>
    obtain ⟨hfailed, hdaemon⟩ := @StartFailed.step p config w h kind j (hjs j List.mem_cons_self)
    rw [← hS] at hfailed hdaemon
    rw [← hdaemon]
    exact ih hfailed fun j' hj' => hjs j' (List.mem_cons_of_mem _ hj')

end Dnsconfd
