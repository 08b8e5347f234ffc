import Dnsconfd.DbusServer.Lifecycle
import Dnsconfd.ServiceManagement.Helper

/-!
# The stop job reaches the cache

When the daemon stops it writes `stop` into the control file and waits until the status file says
`stopped` or `fail`.  The helper may by then be busy with an earlier restart, or may not have taken it
up; in that case the `restart` is lost, since `write_to_file` truncates the control file.  A stop job
is submitted at most once and only after a start job (`orderly_run`), and after it neither of the files
is written again.  So the stop is the last command that the helper takes up: whenever nothing is left
to do the cache is down (`stop_reaches_cache`).

That the daemon hears of it is another matter, because stopping a cache that does not run reports
nothing.  If the cache is down, and is not being started, after `pending` has been written for the stop
job, the daemon waits for ever; in all other cases the next change of the status file ends the wait
(`shutdown_completes`).
-/

namespace Dnsconfd

open Library

variable {p : Platform} {config : Config}

/-! ## The commands of the daemon -/

/-- The command that an effect writes into the control file. -/
def Effect.command : Effect → Option String
  | .controlWritten command => some command
  | _ => none

/-- The commands among the effects, in order. -/
def commandsOf (effects : List Effect) : List String :=
  effects.filterMap Effect.command

@[simp]
lemma commandsOf_append (l l' : List Effect) : commandsOf (l ++ l') = commandsOf l ++ commandsOf l' :=
  List.filterMap_append

/-- The effects that write the status file or the control file. -/
def Effect.isServiceFile : Effect → Bool
  | .statusWritten _ | .controlWritten _ => true
  | _ => false

/-- Neither the status file nor the control file is written. -/
def Hushed (effects : List Effect) : Prop :=
  ∀ e ∈ effects, e.isServiceFile = false

lemma Hushed.append {l l' : List Effect} (h : Hushed l) (h' : Hushed l') : Hushed (l ++ l') := by
  intro e he
  rcases List.mem_append.mp he with he | he
  · exact h e he
  · exact h' e he

lemma commandsOf_of_hushed {l : List Effect} (h : Hushed l) : commandsOf l = [] := by
  refine List.filterMap_eq_nil_iff.mpr fun e he => ?_
  have hhushed := h e he
  cases e <;> first | rfl | cases hhushed

/-- The last command is the stop job, after at least one restart and after `pending`, and neither file
is written after it. -/
def StopLast (log : List Effect) : Prop :=
  ∃ n before after, log = before ++ .controlWritten "stop" :: after ∧
    commandsOf before = List.replicate (n + 1) "restart" ∧ .statusWritten "pending" ∈ before ∧
    Hushed after

lemma StopLast.append {log l : List Effect} (h : StopLast log) (hl : Hushed l) :
    StopLast (log ++ l) := by
  obtain ⟨n, before, after, rfl, hbefore, hpending, hafter⟩ := h
  exact ⟨n, before, after ++ l, by simp, hbefore, hpending, hafter.append hl⟩

lemma StopLast.mem {log : List Effect} (h : StopLast log) :
    "stop" ∈ commandsOf log ∧ .statusWritten "pending" ∈ log := by
  obtain ⟨n, before, after, rfl, -, hpending, -⟩ := h
  constructor
  · rw [commandsOf_append]
    exact List.mem_append_right _ List.mem_cons_self
  · exact List.mem_append_left _ hpending

/-- What is left of the log once the stop job is written. -/
lemma StopLast.hushed_of_mem {log written rest : List Effect} (h : StopLast log)
    (hlog : log = written ++ rest) (hmem : "stop" ∈ commandsOf written) : Hushed rest := by
  obtain ⟨n, before, after, heq, hbefore, -, hafter⟩ := h
  rw [hlog] at heq
  rcases List.append_eq_append_iff.mp heq with ⟨l, rfl, -⟩ | ⟨l, rfl, hl⟩
  · rw [commandsOf_append] at hbefore
    have hrestart : "stop" ∈ List.replicate (n + 1) "restart" :=
      hbefore ▸ List.mem_append_left _ hmem
    exact absurd (List.eq_of_mem_replicate hrestart) (by decide)
  · cases l with
    | nil =>
      rw [List.append_nil, hbefore] at hmem
      exact absurd (List.eq_of_mem_replicate hmem) (by decide)
    | cons e l =>
      obtain ⟨-, rfl⟩ := List.cons.inj hl
      exact fun e he => hafter e (List.mem_append_right _ he)

/-- The states in which no start job may have been submitted. -/
def mayBeUnstarted : FsmState → FsmEvent → Bool
  | .starting, _ | .configuringDnsManager, _ | .stopping, _ => true
  | .submittingStartJob, event => event ≠ .success
  | _, _ => false

/-- The stop job has been submitted. -/
def isStopSubmitted : FsmState → FsmEvent → Bool
  | .submittingStopJob, event => event = .success
  | .waitingStopJob, _ => true
  | _, _ => false

/-- The states that may be reached once the stop job has been submitted. -/
def FsmState.isAfterStopJob : FsmState → Bool
  | .submittingStopJob | .waitingStopJob | .stopping => true
  | _ => false

/-- The commands so far are restarts, at least one if the state requires a start job. -/
def OnlyRestarts (state : FsmState) (event : FsmEvent) (log : List Effect) : Prop :=
  isStopSubmitted state event = false ∧ ∃ n, commandsOf log = List.replicate n "restart" ∧
    (n = 0 → mayBeUnstarted state event = true)

/-- The commands are in order: restarts, after which there may be one stop job. -/
def Orderly (ctx : Context) (event : FsmEvent) (log : List Effect) : Prop :=
  OnlyRestarts ctx.currentState event log ∨
    (ctx.currentState.isAfterStopJob = true ∧ ctx.expectedStatus = some "stopped" ∧ StopLast log)

/-- Effects that write neither file. -/
lemma OnlyRestarts.hushed {state state' : FsmState} {event event' : FsmEvent} {log l : List Effect}
    (h : OnlyRestarts state event log) (hl : Hushed l)
    (hsubmitted : isStopSubmitted state' event' = false)
    (hstarted : mayBeUnstarted state event = true → mayBeUnstarted state' event' = true) :
    OnlyRestarts state' event' (log ++ l) := by
  obtain ⟨-, n, hcommands, hn⟩ := h
  refine ⟨hsubmitted, n, ?_, fun h => hstarted (hn h)⟩
  rw [commandsOf_append, commandsOf_of_hushed hl, List.append_nil, hcommands]

/-- After the stop job no iteration writes either file. -/
lemma Edge.hushed_of_isAfterStopJob {o : Outcomes} {ctx : Context} {event : FsmEvent}
    {r : ActionResult} (hedge : Edge p config o ctx event r)
    (hs : ctx.currentState.isAfterStopJob = true) :
    Hushed (.transitionMade ctx.currentState event :: r.effects) := by
  intro e he
  rcases List.mem_cons.mp he with rfl | he
  · rfl
  have hof := hedge.isOf he
  revert hs hof
  cases e with
  | statusWritten content | controlWritten command =>
    cases ctx.currentState <;> cases event <;>
      simp [FsmState.isAfterStopJob, Effect.isOf, isStartJob, isAnyStopJob, isStopJob]
  | _ => exact fun _ _ => rfl

/-- Nor does it change what the daemon waits for. -/
lemma Edge.afterStopJob {o : Outcomes} {ctx : Context} {event : FsmEvent} {r : ActionResult}
    (hedge : Edge p config o ctx event r) (hs : ctx.currentState.isAfterStopJob = true) :
    r.ctx.currentState.isAfterStopJob = true ∧ r.ctx.expectedStatus = ctx.expectedStatus := by
  have hnext : r.ctx.currentState.isAfterStopJob = true := by
    have hnext := hedge.nextState_eq
    generalize r.ctx.currentState = next at hnext
    revert hs hnext
    cases ctx.currentState <;> cases event <;>
      simp +contextual [nextState, FsmState.isAfterStopJob, eq_comm]
  refine ⟨hnext, ?_⟩
  cases hedge with
  | ignored | abandon | startJobSubmitted | updated | stopJobSubmitted | quit => rfl
  | refresh hs' => rcases hs' with hs' | hs' <;> rw [hs'] at hs <;> cases hs
  | stopJob hs' =>
    revert hs hs'
    cases ctx.currentState <;> cases event <;> simp [FsmState.isAfterStopJob, isStopJob]
  | kickoff => cases hnext
  | startJob hs' | startJobDone hs' | startJobFailed hs' | updateRunning hs' | resolvConfSet hs'
  | resolvConfFailed hs' | updateFailed hs' | stopRunning hs' =>
    rw [hs'] at hs
    cases hs

/-- A job is submitted by a command, or the submission fails without one. -/
lemma setServiceStatus_cases (expectedStatus command : String) (o : ServiceOutcome) (ctx : Context) :
    ((setServiceStatus expectedStatus command o ctx).event = .failure ∧
      commandsOf (setServiceStatus expectedStatus command o ctx).effects = []) ∨
    ((setServiceStatus expectedStatus command o ctx).event = .success ∧
      (setServiceStatus expectedStatus command o ctx).effects =
        [.statusWritten "pending", .controlWritten command]) := by
  unfold setServiceStatus
  dsimp only
  split_ifs
  · exact Or.inl ⟨rfl, rfl⟩
  · exact Or.inl ⟨rfl, rfl⟩
  · exact Or.inr ⟨rfl, rfl⟩

/-- An iteration that submits a start job. -/
lemma orderly_startJob {o : ServiceOutcome} {ctx : Context} {log : List Effect} {n : ℕ}
    {e : Effect} (hcommands : commandsOf (log ++ [e]) = List.replicate n "restart") :
    let r := (setServiceStatus "ready" "restart" o ctx).enter .submittingStartJob
    Orderly r.ctx r.event (log ++ e :: r.effects) := by
  dsimp only [ActionResult.enter]
  rw [List.append_cons]
  rcases setServiceStatus_cases "ready" "restart" o ctx with ⟨hevent, hnone⟩ | ⟨hevent, heffects⟩
  · rw [hevent]
    refine Or.inl ⟨rfl, n, ?_, fun _ => rfl⟩
    rw [commandsOf_append, hcommands, hnone, List.append_nil]
  · rw [hevent, heffects]
    refine Or.inl ⟨rfl, n + 1, ?_, by simp⟩
    rw [commandsOf_append, hcommands, List.replicate_succ']
    rfl

/-- An iteration that submits the stop job. -/
lemma orderly_submitStopJob {o : ServiceOutcome} {ctx : Context} {log : List Effect} {n : ℕ}
    {e : Effect} (hcommands : commandsOf (log ++ [e]) = List.replicate (n + 1) "restart") :
    let r := (submitStopJob o ctx).enter .submittingStopJob
    Orderly r.ctx r.event (log ++ e :: r.effects) := by
  dsimp only [ActionResult.enter, submitStopJob]
  rw [List.append_cons]
  rcases setServiceStatus_cases "stopped" "stop" o ctx with ⟨hevent, hnone⟩ | ⟨hevent, heffects⟩
  · rw [hevent]
    refine Or.inl ⟨rfl, n + 1, ?_, by simp⟩
    rw [commandsOf_append, hcommands, hnone, List.append_nil]
  · rw [hevent, heffects]
    refine Or.inr ⟨rfl, by simp, n, log ++ [e] ++ [.statusWritten "pending"], [], by simp, ?_,
      by simp, by simp [Hushed]⟩
    rw [commandsOf_append, hcommands]
    exact List.append_nil _

/-- The other iterations lead to states that require no more commands than before. -/
lemma nextState_of_hushed {state next : FsmState} {event : FsmEvent}
    (hnext : nextState state event = some next) (hstart : isStartJob state event = false)
    (hstop : isAnyStopJob state event = false) (hsubmitted : isStopSubmitted state event = false)
    (event' : FsmEvent) :
    isStopSubmitted next event' = false ∧
      (mayBeUnstarted state event = true → mayBeUnstarted next event' = true) := by
  cases state <;> cases event <;>
    simp only [nextState, reduceCtorEq, Option.some.injEq] at hnext <;> subst hnext <;>
    simp_all [isStartJob, isAnyStopJob, isStopJob, isStopSubmitted, mayBeUnstarted]

/-- The commands stay in order. -/
lemma Orderly.edge {o : Outcomes} {ctx : Context} {event : FsmEvent} {log : List Effect}
    {r : ActionResult} (h : Orderly ctx event log) (hedge : Edge p config o ctx event r) :
    Orderly r.ctx r.event (log ++ .transitionMade ctx.currentState event :: r.effects) := by
  rcases h with hrestarts | ⟨hs, hexpected, hlast⟩
  swap
  · obtain ⟨hafter, hsame⟩ := hedge.afterStopJob hs
    exact Or.inr ⟨hafter, hsame.trans hexpected, hlast.append (hedge.hushed_of_isAfterStopJob hs)⟩
  have hother : isStartJob ctx.currentState event = false →
      isAnyStopJob ctx.currentState event = false →
      Orderly r.ctx r.event (log ++ .transitionMade ctx.currentState event :: r.effects) := by
    intro hstart hstop
    obtain ⟨hsubmitted, hstarted⟩ :=
      nextState_of_hushed hedge.nextState_eq hstart hstop hrestarts.1 r.event
    refine Or.inl (hrestarts.hushed (fun e he => ?_) hsubmitted hstarted)
    rcases List.mem_cons.mp he with rfl | he
    · rfl
    have hof := hedge.isOf he
    cases e with
    | statusWritten | controlWritten => simp [Effect.isOf, hstart, hstop] at hof
    | _ => rfl
  obtain ⟨-, n, hcommands, hn⟩ := hrestarts
  have hsame : commandsOf (log ++ [.transitionMade ctx.currentState event]) =
      List.replicate n "restart" := by
    rw [commandsOf_append, hcommands]
    exact List.append_nil _
  have hstarted : mayBeUnstarted ctx.currentState event = false →
      ∃ n, commandsOf (log ++ [.transitionMade ctx.currentState event]) =
        List.replicate (n + 1) "restart" := by
    intro hunstarted
    cases n with
    | zero =>
      rw [hn rfl] at hunstarted
      cases hunstarted
    | succ n => exact ⟨n, hsame⟩
  cases hedge with
  | startJob hs => exact orderly_startJob hsame
  | resolvConfFailed hs =>
    obtain ⟨n, hn⟩ := hstarted (by rw [hs]; rfl)
    exact orderly_submitStopJob hn
  | stopJob hs =>
    obtain ⟨n, hn⟩ := hstarted (by
      revert hs
      cases ctx.currentState <;> cases event <;> simp [isStopJob, mayBeUnstarted])
    exact orderly_submitStopJob hn
  | refresh hs => rcases hs with hs | hs <;> exact hother (by rw [hs]; rfl) (by rw [hs]; rfl)
  | kickoff hs | ignored hs | abandon hs =>
    refine hother ?_ ?_ <;> revert hs <;> cases ctx.currentState <;> cases event <;>
      simp [isKickoff, isIgnored, isAbandon, isStartJob, isAnyStopJob, isStopJob]
  | startJobSubmitted hs | startJobDone hs | startJobFailed hs | updateRunning hs | resolvConfSet hs
  | updated hs | updateFailed hs | stopRunning hs | stopJobSubmitted hs | quit hs =>
    exact hother (by rw [hs]; rfl) (by rw [hs]; rfl)

/-- Effects that write neither file, at rest. -/
lemma Orderly.rest {ctx ctx' : Context} {event : FsmEvent} {log l : List Effect}
    (h : Orderly ctx event log) (hstate : ctx'.currentState = ctx.currentState)
    (hexpected : ctx'.expectedStatus = ctx.expectedStatus) {event' : FsmEvent}
    (hevent : event' ≠ .success) (hl : Hushed l) : Orderly ctx' event' (log ++ l) := by
  rcases h with hrestarts | ⟨hs, he, hlast⟩
  · refine Or.inl (hrestarts.hushed hl ?_ ?_)
    · have hsubmitted := hrestarts.1
      rw [hstate]
      revert hsubmitted
      cases ctx.currentState <;> simp [isStopSubmitted, hevent]
    · rw [hstate]
      cases ctx.currentState <;> simp [mayBeUnstarted, hevent]
  · exact Or.inr ⟨hstate ▸ hs, hexpected.trans he, hlast.append hl⟩

/-- Nothing but the event changes. -/
lemma Orderly.await {ctx : Context} {event event' : FsmEvent} {log : List Effect}
    (h : Orderly ctx event log) (hevent : event' ≠ .success) : Orderly ctx event' log := by
  have hnone : Hushed [] := by simp [Hushed]
  have hrest := h.rest rfl rfl hevent hnone
  rwa [List.append_nil] at hrest

/-- The commands are in order after every run of the daemon. -/
lemma orderly_run (is : List Input) :
    Orderly ((daemon p config).run is).ctx .none ((daemon p config).run is).log := by
  have hinitial : Orderly Daemon.initial.ctx .none Daemon.initial.log :=
    Or.inl ⟨rfl, 0, rfl, fun _ => rfl⟩
  refine invariant_of_micro_true (p := p) (d := .initial)
    (J := fun a => Orderly a.ctx a.event a.log) ?_ hinitial is
  intro a b h hstep
  cases hstep with
  | edge hok hedge => exact h.edge hedge
  | receive he hu =>
    refine h.await ?_
    rintro rfl
    cases he
  | skipped => exact h.await (by simp)
  | parsed | refused | replied | rejected | reloadReplied | nameLost =>
    exact h.rest rfl rfl (by simp) (by simp [Hushed, Effect.isServiceFile])

/-- Once the stop job is among the commands it is the last of them. -/
lemma Orderly.stopLast {ctx : Context} {event : FsmEvent} {log : List Effect}
    (h : Orderly ctx event log) (hstop : "stop" ∈ commandsOf log) : StopLast log := by
  rcases h with ⟨-, n, hcommands, -⟩ | ⟨-, -, hlast⟩
  · rw [hcommands] at hstop
    exact absurd (List.eq_of_mem_replicate hstop) (by decide)
  · exact hlast

/-! ## The world seen through the files -/

/-- The daemon is as after a run of its own, whatever the main loop dispatches. -/
lemma reached_serve {w : World} (h : ∃ is, w.daemon = (daemon p config).run is) (i : ServiceInput) :
    ∃ is, (w.serve p config i).daemon = (daemon p config).run is := by
  obtain ⟨is, hdaemon⟩ := h
  have hstep : ∀ j, ∃ is, w.daemon.step p config j = (daemon p config).run is := by
    intro j
    refine ⟨is ++ [j], ?_⟩
    rw [System.run_append, ← hdaemon]
    rfl
  unfold World.serve
  split_ifs with hwrites
  · rcases serve_cases p config w.daemon i with ⟨event, -, -, heq⟩ | ⟨result, -, heq⟩ | ⟨-, heq⟩
    · rw [heq]
      exact hstep ⟨event, i.outcomes, i.isWireless⟩
    · rw [heq]
      exact hstep ⟨.jobFinished result, i.outcomes, i.isWireless⟩
    · rw [heq]
      exact ⟨is, hdaemon⟩
  · exact ⟨is, hdaemon⟩

/-- What the main loop dispatches adds to the effects that are to be performed. -/
lemma log_serve {w : World} {performed : List Effect} (h : w.daemon.log = performed ++ w.writes)
    (i : ServiceInput) :
    (w.serve p config i).daemon.log = performed ++ (w.serve p config i).writes := by
  unfold World.serve
  split_ifs with hwrites
  swap
  · exact h
  have hperformed : w.daemon.log = performed := by
    rw [h, List.isEmpty_iff.mp hwrites, List.append_nil]
  rw [← hperformed]
  rcases serve_cases p config w.daemon i with ⟨event, -, -, heq⟩ | ⟨result, -, heq⟩ | ⟨-, heq⟩
  · rw [heq]
    exact (submission_step w.daemon ⟨event, i.outcomes, i.isWireless⟩).log
  · rw [heq]
    exact (submission_step w.daemon ⟨.jobFinished result, i.outcomes, i.isWireless⟩).log
  · rw [heq]
    simp

/-- The daemon is as after a run of its own, and `J` holds of the effects that it has performed, of the
files and of the helper. -/
def SeenThroughFiles (p : Platform) (config : Config)
    (J : List Effect → SharedFiles → Helper → Prop) (w : World) : Prop :=
  (∃ is, w.daemon = (daemon p config).run is) ∧
    ∃ performed, w.daemon.log = performed ++ w.writes ∧ J performed w.files w.helper

/-- **Invariant rule.**  What the daemon preserves by performing an effect of one of its runs, and the
helper by each of its steps, holds after every run of the two. -/
lemma seenThroughFiles_run {J : List Effect → SharedFiles → Helper → Prop}
    (hperform : ∀ (is : List Input) (performed : List Effect) (e : Effect) (rest : List Effect)
      (files : SharedFiles) (helper : Helper),
      ((daemon p config).run is).log = performed ++ e :: rest → J performed files helper →
      J (performed ++ [e]) (files.write .overwritten e) helper)
    (hhelp : ∀ (performed : List Effect) (files : SharedFiles) (helper : Helper) (step : HelperStep),
      J performed files helper → J performed (helper.step files step).2 (helper.step files step).1)
    {files : SharedFiles} {helper : Helper} (hinit : J [] files helper) (is : List WorldInput) :
    SeenThroughFiles p config J ((world p config .overwritten files helper).run is) := by
  refine (world p config .overwritten files helper).invariant ?_ ⟨⟨[], rfl⟩, [], rfl, hinit⟩ is
  rintro w i ⟨hreached, performed, hlog, hJ⟩
  have hserve : ∀ j, SeenThroughFiles p config J (w.serve p config j) := by
    intro j
    refine ⟨reached_serve hreached j, performed, log_serve hlog j, ?_⟩
    unfold World.serve
    split_ifs <;> exact hJ
  cases i with
  | dispatched event o isWireless => exact hserve _
  | statusChanged eventType readable o => exact hserve _
  | perform =>
    obtain ⟨d, writes, shared, h⟩ := w
    cases writes with
    | nil => exact ⟨hreached, performed, hlog, hJ⟩
    | cons e rest =>
      obtain ⟨is', hdaemon⟩ := hreached
      have hlog' : d.log = performed ++ e :: rest := hlog
      refine ⟨⟨is', hdaemon⟩, performed ++ [e], hlog'.trans (List.append_cons _ _ _), ?_⟩
      refine hperform is' performed e rest shared h ?_ hJ
      rw [← hdaemon]
      exact hlog'
  | helper step => exact ⟨hreached, performed, hlog, hhelp performed w.files w.helper step hJ⟩

/-- Other effects than commands leave the control file as it is. -/
lemma SharedFiles.control_write {files : SharedFiles} {e : Effect}
    (he : ∀ command, e ≠ .controlWritten command) :
    (files.write .overwritten e).control = files.control := by
  cases e with
  | controlWritten command => exact absurd rfl (he command)
  | _ => rfl

lemma SharedFiles.write_of_not_isServiceFile (files : SharedFiles) (kind : ControlFile) {e : Effect}
    (he : e.isServiceFile = false) :
    (files.write kind e).control = files.control ∧ (files.write kind e).status = files.status := by
  cases e with
  | statusWritten | controlWritten => cases he
  | _ => exact ⟨rfl, rfl⟩

/-! ## What the helper makes of the stop job -/

/-- The cache is down, or the helper is about to stop it. -/
def Helper.stops : Helper → Bool
  | .idle unbound => unbound.isNone
  | .stopping _ => true
  | _ => false

/-- The stop job is unread, or the helper has taken it up. -/
def StopHeeded (performed : List Effect) (files : SharedFiles) (helper : Helper) : Prop :=
  "stop" ∈ commandsOf performed →
    files.control = ["stop"] ∨ (files.control = [] ∧ helper.stops = true)

/-- Nothing is written to the control file after the stop job. -/
lemma StopHeeded.perform (is : List Input) (performed : List Effect) (e : Effect)
    (rest : List Effect) (files : SharedFiles) (helper : Helper)
    (hlog : ((daemon p config).run is).log = performed ++ e :: rest)
    (h : StopHeeded performed files helper) :
    StopHeeded (performed ++ [e]) (files.write .overwritten e) helper := by
  intro hstop
  rw [commandsOf_append, List.mem_append] at hstop
  rcases hstop with hstop | hstop
  · have hlast : StopLast ((daemon p config).run is).log := by
      refine (orderly_run is).stopLast ?_
      rw [hlog, commandsOf_append]
      exact List.mem_append_left _ hstop
    have hhushed := hlast.hushed_of_mem hlog hstop e List.mem_cons_self
    have he : ∀ command, e ≠ .controlWritten command := by
      rintro command rfl
      cases hhushed
    rw [SharedFiles.control_write he]
    exact h hstop
  · obtain ⟨e', he', hcommand⟩ := List.mem_filterMap.mp hstop
    obtain rfl := List.mem_singleton.mp he'
    cases e' with
    | controlWritten command =>
      obtain rfl := Option.some.inj hcommand
      exact Or.inl rfl
    | _ => cases hcommand

/-- The control file while the helper goes on with its command. -/
lemma Helper.control_proceed (helper : Helper) (files : SharedFiles) :
    (helper.step files .proceed).2.control = files.control := by
  cases helper with
  | restarting unbound | stopping unbound => cases unbound <;> rfl
  | idle | stopped | loaded => rfl

/-- The control file when the cache fails. -/
lemma Helper.control_fail (helper : Helper) (files : SharedFiles) :
    (helper.step files .fail).2.control = files.control := by
  rcases Helper.fail_cases helper files with ⟨-, heq⟩ | ⟨helper', -, heq⟩ <;> rw [heq]

/-- If there is one unread command, the helper takes it up or nothing happens. -/
lemma Helper.takeUp_single {helper : Helper} {files : SharedFiles} {command : String}
    (hcontrol : files.control = [command]) (merged : ℕ) :
    helper.step files (.takeUp merged) = (helper, files) ∨
      ∃ unbound, helper = .idle unbound ∧ helper.step files (.takeUp merged) =
        (.obey unbound command, { files with control := [] }) := by
  rcases Helper.takeUp_cases helper files merged with heq | ⟨unbound, command', unread, hidle, htaken, heq⟩
  · exact Or.inl heq
  · rw [hcontrol, List.replicate_succ, List.cons_append] at htaken
    obtain ⟨rfl, hrest⟩ := List.cons.inj htaken
    obtain ⟨-, rfl⟩ := List.append_eq_nil_iff.mp hrest.symm
    exact Or.inr ⟨unbound, hidle, heq⟩

/-- If there is no unread command, the helper takes up none. -/
lemma Helper.takeUp_nil {helper : Helper} {files : SharedFiles} (hcontrol : files.control = [])
    (merged : ℕ) : helper.step files (.takeUp merged) = (helper, files) := by
  rcases Helper.takeUp_cases helper files merged with heq | ⟨unbound, command, unread, -, htaken, -⟩
  · exact heq
  · rw [hcontrol, List.replicate_succ] at htaken
    cases htaken

/-- The cache stays down. -/
lemma Helper.stops_step {helper : Helper} {files : SharedFiles} (h : helper.stops = true)
    (hcontrol : files.control = []) (step : HelperStep) :
    (helper.step files step).1.stops = true := by
  cases step with
  | takeUp merged =>
    rw [Helper.takeUp_nil hcontrol]
    exact h
  | proceed | fail =>
    cases helper with
    | idle unbound | stopping unbound => cases unbound <;> first | rfl | cases h
    | restarting | stopped | loaded => cases h

lemma StopHeeded.help (performed : List Effect) (files : SharedFiles) (helper : Helper)
    (step : HelperStep) (h : StopHeeded performed files helper) :
    StopHeeded performed (helper.step files step).2 (helper.step files step).1 := by
  intro hstop
  rcases h hstop with hunread | ⟨hnone, hstops⟩
  · cases step with
    | takeUp merged =>
      rcases Helper.takeUp_single hunread merged with heq | ⟨unbound, -, heq⟩
      · rw [heq]
        exact Or.inl hunread
      · rw [heq]
        exact Or.inr ⟨rfl, rfl⟩
    | proceed =>
      rw [Helper.control_proceed]
      exact Or.inl hunread
    | fail =>
      rw [Helper.control_fail]
      exact Or.inl hunread
  · refine Or.inr ⟨?_, Helper.stops_step hstops hnone step⟩
    cases step with
    | takeUp merged => rw [Helper.takeUp_nil hnone, hnone]
    | proceed => rw [Helper.control_proceed, hnone]
    | fail => rw [Helper.control_fail, hnone]

/-! ## What the status file says -/

/-- The only thing that the daemon writes into the status file is `pending`. -/
lemma pending_of_statusWritten (is : List Input) {content : String}
    (h : .statusWritten content ∈ ((daemon p config).run is).log) : content = "pending" := by
  have hinvariant : ∀ content, .statusWritten content ∈ ((daemon p config).run is).moment.log →
      content = "pending" := by
    refine invariant_of_micro_true (p := p) (d := .initial)
      (J := fun a => ∀ content, .statusWritten content ∈ a.log → content = "pending") ?_
      (fun content h => by cases h) is
    intro a b ha hstep content hmem
    cases hstep with
    | edge hok hedge =>
      rcases List.mem_append.mp hmem with hmem | hmem
      · exact ha content hmem
      rcases List.mem_cons.mp hmem with hmem | hmem
      · cases hmem
      have hof := hedge.isOf hmem
      simp only [Effect.isOf, Bool.and_eq_true, decide_eq_true_eq] at hof
      exact hof.1
    | receive | skipped => exact ha content hmem
    | parsed | refused | replied | rejected | reloadReplied | nameLost =>
      exact ha content (by simpa using hmem)
  exact hinvariant content h

/-- What the status file says once it has been written by the daemon. -/
def Reported (files : SharedFiles) (helper : Helper) : Prop :=
  files.status = "pending" ∨ files.status = "stopped\n" ∨ files.status = "fail\n" ∨
    (files.status = "ready\n" ∧ helper.unbound.isSome = true)

/-- As an invariant of the daemon and the helper. -/
def ReportedOnce (performed : List Effect) (files : SharedFiles) (helper : Helper) : Prop :=
  (∃ content, .statusWritten content ∈ performed) → Reported files helper

lemma ReportedOnce.perform (is : List Input) (performed : List Effect) (e : Effect)
    (rest : List Effect) (files : SharedFiles) (helper : Helper)
    (hlog : ((daemon p config).run is).log = performed ++ e :: rest)
    (h : ReportedOnce performed files helper) :
    ReportedOnce (performed ++ [e]) (files.write .overwritten e) helper := by
  rintro ⟨content, hmem⟩
  rw [List.mem_append] at hmem
  cases e with
  | statusWritten content' =>
    refine Or.inl (@pending_of_statusWritten p config is content' ?_)
    rw [hlog]
    exact List.mem_append_right _ List.mem_cons_self
  | _ => exact h ⟨content, hmem.resolve_right (by simp)⟩

lemma Reported.help {files : SharedFiles} {helper : Helper} (h : Reported files helper)
    (step : HelperStep) : Reported (helper.step files step).2 (helper.step files step).1 := by
  cases step with
  | takeUp merged =>
    rcases Helper.takeUp_cases helper files merged with heq | ⟨unbound, command, unread, rfl, -, heq⟩
    · rw [heq]
      exact h
    · rw [heq]
      unfold Reported
      rw [Helper.unbound_obey]
      exact h
  | proceed =>
    cases helper with
    | idle unbound => exact h
    | restarting unbound | stopping unbound =>
      cases unbound with
      | none => exact h
      | some conf => exact Or.inr (Or.inl rfl)
    | stopped => exact h.imp_right (Or.imp_right (Or.imp_right fun hready => ⟨hready.1, rfl⟩))
    | loaded conf => exact Or.inr (Or.inr (Or.inr ⟨rfl, rfl⟩))
  | fail =>
    rcases Helper.fail_cases helper files with ⟨-, heq⟩ | ⟨helper', -, heq⟩
    · rw [heq]
      exact h
    · rw [heq]
      exact Or.inr (Or.inr (Or.inl rfl))

/-- The two invariants together. -/
def Stopping (p : Platform) (config : Config) : World → Prop :=
  SeenThroughFiles p config fun performed files helper =>
    StopHeeded performed files helper ∧ ReportedOnce performed files helper

lemma stopping_run (files : SharedFiles) (helper : Helper) (is : List WorldInput) :
    Stopping p config ((world p config .overwritten files helper).run is) := by
  have hinit : StopHeeded [] files helper ∧ ReportedOnce [] files helper := by
    constructor
    · rintro h
      cases h
    · rintro ⟨content, h⟩
      cases h
  refine seenThroughFiles_run ?_ ?_ hinit is
  · rintro is performed e rest files helper hlog ⟨hstop, hreported⟩
    exact ⟨hstop.perform is performed e rest files helper hlog,
      hreported.perform is performed e rest files helper hlog⟩
  · rintro performed files helper step ⟨hstop, hreported⟩
    exact ⟨hstop.help performed files helper step, fun hwritten => (hreported hwritten).help step⟩

/-! ## The end of the stop job -/

/-- The daemon has performed its effects, and the helper has nothing left to do. -/
def World.isFinished (w : World) : Bool :=
  match w.helper with
  | .idle _ => w.writes.isEmpty && w.files.control.isEmpty
  | _ => false

lemma World.isFinished_iff {w : World} :
    w.isFinished = true ↔
      w.writes = [] ∧ w.files.control = [] ∧ ∃ unbound, w.helper = .idle unbound := by
  unfold World.isFinished
  split <;> simp_all

/-- What is left when the stop job has been done. -/
lemma Stopping.down_of_isFinished {w : World} (h : Stopping p config w)
    (hstop : "stop" ∈ commandsOf w.daemon.log) (hfinished : w.isFinished = true) :
    w.helper = .idle none ∧
      (w.files.status = "pending" ∨ w.files.status = "stopped\n" ∨ w.files.status = "fail\n") := by
  obtain ⟨⟨is, hdaemon⟩, performed, hlog, hheeded, hreported⟩ := h
  obtain ⟨hwrites, hnone, unbound, hidle⟩ := World.isFinished_iff.mp hfinished
  rw [hwrites, List.append_nil] at hlog
  have hlast : StopLast w.daemon.log := by
    rw [hdaemon] at hstop ⊢
    exact (orderly_run is).stopLast hstop
  rw [hlog] at hstop hlast
  have hdown : unbound = none := by
    rcases hheeded hstop with hunread | ⟨-, hstops⟩
    · rw [hnone] at hunread
      cases hunread
    · rw [hidle] at hstops
      exact Option.isNone_iff_eq_none.mp hstops
  subst hdown
  refine ⟨hidle, ?_⟩
  rcases hreported ⟨_, hlast.mem.2⟩ with hpending | hstopped | hfail | ⟨-, hrun⟩
  · exact Or.inl hpending
  · exact Or.inr (Or.inl hstopped)
  · exact Or.inr (Or.inr hfail)
  · rw [hidle] at hrun
    cases hrun

/-- In every interleaving of the daemon, which may be sent anything, with the helper, whose starts and
stops may fail: if the daemon has submitted a stop job, then whenever nothing is left to do the cache
is down.  Restarts that the helper had not finished when the daemon was stopped do not bring it up
again. -/
theorem stop_reaches_cache (p : Platform) (config : Config) (files : SharedFiles) (helper : Helper)
    (is : List WorldInput)
    (hstop : .controlWritten "stop" ∈
      ((world p config .overwritten files helper).run is).daemon.log)
    (hfinished : ((world p config .overwritten files helper).run is).isFinished = true) :
    ((world p config .overwritten files helper).run is).helper.unbound = none ∧
      ((world p config .overwritten files helper).run is).files.status ∈
        ["pending", "stopped\n", "fail\n"] := by
  have hmem : "stop" ∈ commandsOf ((world p config .overwritten files helper).run is).daemon.log :=
    List.mem_filterMap.mpr ⟨_, hstop, rfl⟩
  obtain ⟨hdown, hstatus⟩ := (stopping_run files helper is).down_of_isFinished hmem hfinished
  rw [hdown]
  exact ⟨rfl, by simpa using hstatus⟩

/-- The daemon is stopped while the helper, which has taken up the restart, has not loaded unbound.conf
yet; the helper finishes the restart and stops the cache again. -/
theorem stop_reaches_cache_during_restart :
    let is := WorldInput.performed .nameAcquired isJobResult_nameAcquired 7 ++
      [.helper (.takeUp 0)] ++ WorldInput.performed .sigterm rfl 6 ++
      [.helper .proceed, .helper .proceed, .helper .proceed, .helper (.takeUp 0), .helper .proceed]
    let w := (world .plain .plain .overwritten .blank (.idle none)).run is
    w.isFinished = true ∧ w.helper.unbound = none ∧
      w.files.status ∈ ["pending", "stopped\n", "fail\n"] := by
  have hstop : .controlWritten "stop" ∈ ((world .plain .plain .overwritten .blank (.idle none)).run
      (WorldInput.performed .nameAcquired isJobResult_nameAcquired 7 ++
        [.helper (.takeUp 0)] ++ WorldInput.performed .sigterm rfl 6 ++
        [.helper .proceed, .helper .proceed, .helper .proceed, .helper (.takeUp 0),
          .helper .proceed])).daemon.log := by
    decide
  exact ⟨by decide, stop_reaches_cache .plain .plain .blank (.idle none) _ hstop (by decide)⟩

/-! ## The way there -/

/-- The main loop dispatches something. -/
def WorldInput.isDispatch : WorldInput → Bool
  | .dispatched _ _ _ | .statusChanged _ _ _ => true
  | .perform | .helper _ => false

/-- The cache fails. -/
def WorldInput.isFailure : WorldInput → Bool
  | .helper .fail => true
  | _ => false

/-- The daemon and the helper get from one state to another without being sent anything and without a
failure of the cache. -/
def Proceeds (S : System World WorldInput) (w w' : World) : Prop :=
  ∃ is, (∀ i ∈ is, i.isDispatch = false ∧ i.isFailure = false) ∧ S.runFrom w is = w'

lemma Proceeds.refl (S : System World WorldInput) (w : World) : Proceeds S w w :=
  ⟨[], by simp, rfl⟩

lemma Proceeds.trans {S : System World WorldInput} {w w' w'' : World} (h : Proceeds S w w')
    (h' : Proceeds S w' w'') : Proceeds S w w'' := by
  obtain ⟨is, his, rfl⟩ := h
  obtain ⟨js, hjs, rfl⟩ := h'
  refine ⟨is ++ js, fun i hi => ?_, S.runFrom_append w is js⟩
  rcases List.mem_append.mp hi with hi | hi
  · exact his i hi
  · exact hjs i hi

section Way

variable {kind : ControlFile} {files : SharedFiles} {helper : Helper}

lemma proceeds_step (w : World) (i : WorldInput) (hi : i.isDispatch = false)
    (hfailure : i.isFailure = false) :
    Proceeds (world p config kind files helper) w (w.step p config kind i) :=
  ⟨[i], by simpa using ⟨hi, hfailure⟩, rfl⟩

/-- The daemon performs all its effects. -/
lemma proceeds_performed (w : World) :
    Proceeds (world p config kind files helper) w
      { w with writes := [], files := w.writes.foldl (SharedFiles.write kind) w.files } := by
  obtain ⟨d, writes, shared, h⟩ := w
  induction writes generalizing shared with
  | nil => exact .refl _ _
  | cons e writes ih => exact (proceeds_step ⟨d, e :: writes, shared, h⟩ .perform rfl rfl).trans (ih _)

/-- The helper finishes what it does, without a failure. -/
lemma proceeds_idle (w : World) :
    ∃ unbound status, Proceeds (world p config kind files helper) w
      { w with files := { w.files with status := status }, helper := .idle unbound } := by
  obtain ⟨d, writes, shared, h⟩ := w
  have hproceed : ∀ shared h, Proceeds (world p config kind files helper) ⟨d, writes, shared, h⟩
      (World.help ⟨d, writes, shared, h⟩ .proceed) :=
    fun _ _ => proceeds_step _ (.helper .proceed) rfl rfl
  have hstopped : ∀ shared : SharedFiles, ∃ unbound status,
      Proceeds (world p config kind files helper) ⟨d, writes, shared, .stopped⟩
        ⟨d, writes, { shared with status := status }, .idle unbound⟩ :=
    fun shared => ⟨some shared.conf, "ready\n", (hproceed _ _).trans (hproceed _ _)⟩
  cases h with
  | idle unbound => exact ⟨unbound, shared.status, .refl _ _⟩
  | restarting unbound =>
    cases unbound with
    | none =>
      obtain ⟨unbound, status, hway⟩ := hstopped shared
      exact ⟨unbound, status, (hproceed _ _).trans hway⟩
    | some conf =>
      obtain ⟨unbound, status, hway⟩ := hstopped { shared with status := "stopped\n" }
      exact ⟨unbound, status, (hproceed _ _).trans hway⟩
  | stopping unbound =>
    cases unbound with
    | none => exact ⟨none, shared.status, hproceed _ _⟩
    | some conf => exact ⟨none, "stopped\n", hproceed _ _⟩
  | stopped => exact hstopped shared
  | loaded conf => exact ⟨some conf, "ready\n", hproceed _ _⟩

/-- The helper takes up all commands that are in the control file. -/
lemma proceeds_commands (d : Daemon) (writes : List Effect) (conf : ConfFile) (control : List String)
    (status : String) (unbound : Option ConfFile) :
    ∃ status' unbound', Proceeds (world p config kind files helper)
      ⟨d, writes, ⟨conf, status, control⟩, .idle unbound⟩
      ⟨d, writes, ⟨conf, status', []⟩, .idle unbound'⟩ := by
  induction control generalizing status unbound with
  | nil => exact ⟨status, unbound, .refl _ _⟩
  | cons command control ih =>
    have htake : Proceeds (world p config kind files helper)
        ⟨d, writes, ⟨conf, status, command :: control⟩, .idle unbound⟩
        ⟨d, writes, ⟨conf, status, control⟩, .obey unbound command⟩ :=
      proceeds_step _ (.helper (.takeUp 0)) rfl rfl
    obtain ⟨unbound', status', hidle⟩ := @proceeds_idle p config kind files helper
      ⟨d, writes, ⟨conf, status, control⟩, .obey unbound command⟩
    obtain ⟨status'', unbound'', hway⟩ := ih status' unbound'
    exact ⟨status'', unbound'', htake.trans (hidle.trans hway)⟩

/-- The daemon and the helper finish by themselves. -/
lemma proceeds_finished (w : World) :
    ∃ w', Proceeds (world p config kind files helper) w w' ∧ w'.daemon = w.daemon ∧
      w'.isFinished = true := by
  obtain ⟨unbound, status, hidle⟩ := @proceeds_idle p config kind files helper
    { w with writes := [], files := w.writes.foldl (SharedFiles.write kind) w.files }
  obtain ⟨status', unbound', hway⟩ := @proceeds_commands p config kind files helper w.daemon []
    (w.writes.foldl (SharedFiles.write kind) w.files).conf
    (w.writes.foldl (SharedFiles.write kind) w.files).control status unbound
  exact ⟨_, (proceeds_performed w).trans (hidle.trans hway), rfl, rfl⟩

end Way

/-! ## A report that comes -/

/-- The cache does not run and is not going to be started. -/
def Helper.isInert : Helper → Bool
  | .idle unbound | .stopping unbound => unbound.isNone
  | _ => false

/-- The status file is still as the daemon has written it, and the helper has nothing to report. -/
def World.isStranded (w : World) : Bool :=
  w.files.status = "pending" && w.helper.isInert

/-- The end of the cache has been reported, or is going to be. -/
def EndReported (files : SharedFiles) (helper : Helper) : Prop :=
  helper.isInert = true → files.status = "stopped\n" ∨ files.status = "fail\n"

/-- What a cache that does not run has reported. -/
lemma Reported.of_isInert {files : SharedFiles} {helper : Helper} (h : Reported files helper)
    (hinert : helper.isInert = true) (hpending : files.status ≠ "pending") :
    files.status = "stopped\n" ∨ files.status = "fail\n" := by
  have hdown : helper.unbound = none := by
    cases helper with
    | idle unbound | stopping unbound => exact Option.isNone_iff_eq_none.mp hinert
    | restarting | stopped | loaded => cases hinert
  rcases h with h | hstopped | hfail | ⟨-, hrun⟩
  · exact absurd h hpending
  · exact Or.inl hstopped
  · exact Or.inr hfail
  · rw [hdown] at hrun
    cases hrun

lemma EndReported.help {files : SharedFiles} {helper : Helper} (h : EndReported files helper)
    (step : HelperStep) : EndReported (helper.step files step).2 (helper.step files step).1 := by
  cases step with
  | takeUp merged =>
    rcases Helper.takeUp_cases helper files merged with heq | ⟨unbound, command, unread, rfl, -, heq⟩
    · rw [heq]
      exact h
    · rw [heq]
      intro hinert
      refine h ?_
      revert hinert
      unfold Helper.obey
      split_ifs <;> simp [Helper.isInert]
  | proceed =>
    cases helper with
    | idle unbound => exact h
    | restarting unbound | stopping unbound =>
      cases unbound with
      | none => exact fun hinert => h hinert
      | some conf => exact fun _ => Or.inl rfl
    | stopped | loaded => exact fun hinert => by cases hinert
  | fail =>
    cases helper with
    | idle unbound | stopping unbound =>
      cases unbound with
      | none => exact h
      | some conf => exact fun _ => Or.inr rfl
    | restarting unbound => cases unbound <;> exact fun hinert => by cases hinert
    | stopped | loaded => exact fun _ => Or.inr rfl

/-- The end of the stop job, whatever it is, ends the main loop. -/
lemma stateTransition_stopJobEnded (o : Outcomes) {ctx : Context} {event : FsmEvent}
    (log : List Effect) (hs : ctx.currentState = .waitingStopJob)
    (he : event = .jobSuccess ∨ event = .jobFailure) :
    stateTransition p config o ctx event log =
      ⟨true, ⟨{ ctx with currentState := .stopping }, .none, log ++
        [.transitionMade .waitingStopJob event, .transitionMade .stopping .stop, .mainLoopQuit]⟩⟩ := by
  rcases he with rfl | rfl <;>
    simp [stateTransition, stateTransitionLoop, maxIterations, doWhile, transition, transitionAction,
      ActionResult.enter, Machine.hasEvent, hs]

/-- A daemon that has performed its effects reads the status file. -/
lemma step_statusChanged {w : World} (hwrites : w.writes = []) {result : String}
    (hobserve : observe w.daemon.ctx.expectedStatus .changesDoneHint (w.content true) = some result)
    (kind : ControlFile) (o : Outcomes) :
    w.step p config kind (.statusChanged .changesDoneHint true o) =
      { w with
        daemon := onSystemdJobFinished p config o result w.daemon
        writes := (onSystemdJobFinished p config o result w.daemon).log.drop w.daemon.log.length } := by
  have hserved : w.daemon.serve p config
      ⟨.statusChanged .changesDoneHint (w.content true), o, fun _ => false⟩ =
      onSystemdJobFinished p config o result w.daemon := by
    change onFileChanged p config o .changesDoneHint (w.content true) w.daemon = _
    unfold onFileChanged
    rw [hobserve]
  dsimp only [World.step, World.serve]
  rw [if_pos (List.isEmpty_iff.mpr hwrites), hserved]

/-- The daemon reads that the cache has ended. -/
lemma quits_of_report {w : World} (hwaiting : w.daemon.ctx.currentState = .waitingStopJob)
    (hexpected : w.daemon.ctx.expectedStatus = some "stopped") (hwrites : w.writes = [])
    (hreport : w.files.status = "stopped\n" ∨ w.files.status = "fail\n") (kind : ControlFile)
    (o : Outcomes) :
    (w.step p config kind (.statusChanged .changesDoneHint true o)).daemon.ctx.currentState =
        .stopping ∧
      .mainLoopQuit ∈ (w.step p config kind (.statusChanged .changesDoneHint true o)).writes := by
  have hobserve : ∃ result, observe w.daemon.ctx.expectedStatus .changesDoneHint (w.content true) =
      some result ∧ (jobEvent result = .jobSuccess ∨ jobEvent result = .jobFailure) := by
    rw [hexpected, World.content]
    rcases hreport with hstatus | hstatus <;> rw [hstatus]
    · exact ⟨"done", by decide, by decide⟩
    · exact ⟨"fail", by decide, by decide⟩
  obtain ⟨result, hobserve, hevent⟩ := hobserve
  rw [step_statusChanged hwrites hobserve, onSystemdJobFinished,
    stateTransition_stopJobEnded o w.daemon.log hwaiting hevent]
  exact ⟨rfl, by simp⟩

/-! ## A report that does not come -/

/-- The main loop hears that the name on the bus is acquired or lost. -/
def WorldInput.isNameEvent : WorldInput → Bool
  | .dispatched ⟨.nameAcquired, _⟩ _ _ | .dispatched ⟨.nameLost, _⟩ _ _ => true
  | _ => false

/-- The daemon goes on waiting for the end of its stop job. -/
structure KeepsWaiting (d d' : Daemon) : Prop where
  waiting : d'.ctx.currentState = .waitingStopJob
  expected : d'.ctx.expectedStatus = d.ctx.expectedStatus
  log : ∃ l, d'.log = d.log ++ l ∧ Hushed l ∧ .mainLoopQuit ∉ l

lemma keepsWaiting_refl {d : Daemon} (h : d.ctx.currentState = .waitingStopJob) : KeepsWaiting d d :=
  ⟨h, rfl, [], (List.append_nil _).symm, by simp [Hushed], by simp⟩

lemma KeepsWaiting.trans {d d' d'' : Daemon} (h : KeepsWaiting d d') (h' : KeepsWaiting d' d'') :
    KeepsWaiting d d'' := by
  obtain ⟨-, hexpected, l, hlog, hhushed, hquit⟩ := h
  obtain ⟨hwaiting', hexpected', l', hlog', hhushed', hquit'⟩ := h'
  refine ⟨hwaiting', hexpected'.trans hexpected, l ++ l', ?_, hhushed.append hhushed', ?_⟩
  · rw [hlog', hlog, List.append_assoc]
  · rw [List.mem_append]
    exact fun hmem => hmem.elim hquit hquit'

/-- Requests are ignored while the daemon waits for the end of its stop job. -/
lemma dispatch_waitingStopJob (o : Outcomes) {event : FsmEvent} {d : Daemon}
    (hs : d.ctx.currentState = .waitingStopJob)
    (he : event = .update ∨ event = .reload ∨ event = .stop) :
    dispatch p config o event d = ⟨d.ctx, d.log ++ [.transitionMade .waitingStopJob event]⟩ := by
  rcases he with rfl | rfl | rfl <;>
    simp [dispatch, stateTransition, stateTransitionLoop, maxIterations, doWhile, transition,
      transitionAction, Machine.hasEvent, hs]

lemma keepsWaiting_step {d : Daemon} (hs : d.ctx.currentState = .waitingStopJob) {i : Input}
    (hjob : i.event.isJobResult = false) (hacquired : i.event ≠ .nameAcquired)
    (hlost : i.event ≠ .nameLost) : KeepsWaiting d (d.step p config i) := by
  obtain ⟨event, o, isWireless⟩ := i
  cases event with
  | updateCall servers mode =>
    simp only [Daemon.step, handleUpdateCall]
    cases decodeUpdateCall p isWireless servers mode with
    | error error => exact ⟨hs, rfl, _, rfl, by simp [Hushed, Effect.isServiceFile], by simp⟩
    | ok parsed =>
      obtain ⟨parsedServers, mode⟩ := parsed
      have hs' : (d.receive parsedServers mode).ctx.currentState = .waitingStopJob := hs
      dsimp only
      rw [dispatch_waitingStopJob o hs' (Or.inl rfl)]
      refine ⟨hs, rfl, _, List.append_assoc _ _ _ |>.trans (List.append_assoc _ _ _), ?_, ?_⟩
      · simp [Hushed, Effect.isServiceFile]
      · simp
  | reloadCall =>
    simp only [Daemon.step, handleReloadCall]
    rw [dispatch_waitingStopJob o hs (Or.inr (Or.inl rfl))]
    exact ⟨hs, rfl, _, List.append_assoc _ _ _, by simp [Hushed, Effect.isServiceFile], by simp⟩
  | sigterm =>
    simp only [Daemon.step, onSigterm]
    rw [dispatch_waitingStopJob o hs (Or.inr (Or.inr rfl))]
    exact ⟨hs, rfl, _, rfl, by simp [Hushed, Effect.isServiceFile], by simp⟩
  | nameAcquired => exact absurd rfl hacquired
  | nameLost => exact absurd rfl hlost
  | jobFinished result => cases hjob

/-- The daemon waits for the end of its stop job, the status file says `pending`, and nothing that is
still to be done changes that. -/
structure Stranded (w : World) : Prop where
  waiting : w.daemon.ctx.currentState = .waitingStopJob
  expected : w.daemon.ctx.expectedStatus = some "stopped"
  quiet : Hushed w.writes
  control : "restart" ∉ w.files.control
  status : w.files.status = "pending"
  inert : w.helper.isInert = true

lemma Stranded.serve {w : World} (h : Stranded w) {i : ServiceInput}
    (hname : ∀ event, i.event = .dispatched event → event.1 ≠ .nameAcquired ∧ event.1 ≠ .nameLost)
    (hcontent : ∀ eventType content, i.event = .statusChanged eventType content →
      ∀ text ∈ content, text = "pending") :
    Stranded (w.serve p config i) ∧ KeepsWaiting w.daemon (w.serve p config i).daemon := by
  have hserved : KeepsWaiting w.daemon (w.daemon.serve p config i) := by
    obtain ⟨event, o, isWireless⟩ := i
    cases event with
    | dispatched event =>
      obtain ⟨hacquired, hlost⟩ := hname event rfl
      exact keepsWaiting_step h.waiting event.2 hacquired hlost
    | statusChanged eventType content =>
      have hobserve : observe w.daemon.ctx.expectedStatus eventType content = none := by
        rw [h.expected, observe]
        split_ifs
        · cases content with
          | none => rfl
          | some text =>
            obtain rfl := hcontent eventType (some text) rfl text rfl
            decide
        · rfl
      change KeepsWaiting w.daemon (onFileChanged p config o eventType content w.daemon)
      unfold onFileChanged
      rw [hobserve]
      exact keepsWaiting_refl h.waiting
  unfold World.serve
  split_ifs with hwrites
  · refine ⟨⟨hserved.waiting, hserved.expected.trans h.expected, ?_, h.control, h.status, h.inert⟩,
      hserved⟩
    obtain ⟨l, hlog, hhushed, -⟩ := hserved.log
    dsimp only
    rw [hlog, List.drop_left]
    exact hhushed
  · exact ⟨h, keepsWaiting_refl h.waiting⟩

lemma Stranded.perform {w : World} (h : Stranded w) (kind : ControlFile) :
    Stranded (w.perform kind) := by
  obtain ⟨d, writes, shared, helper⟩ := w
  cases writes with
  | nil => exact h
  | cons e rest =>
    have he : e.isServiceFile = false := h.quiet e List.mem_cons_self
    have hfiles := SharedFiles.write_of_not_isServiceFile shared kind he
    refine ⟨h.waiting, h.expected, fun e' he' => h.quiet e' (List.mem_cons_of_mem _ he'), ?_,
      hfiles.2.trans h.status, h.inert⟩
    change "restart" ∉ (shared.write kind e).control
    rw [hfiles.1]
    exact h.control

lemma Stranded.help {w : World} (h : Stranded w) (step : HelperStep) : Stranded (w.help step) := by
  obtain ⟨d, writes, shared, helper⟩ := w
  have hinert : helper.isInert = true := h.inert
  cases step with
  | takeUp merged =>
    unfold World.help
    dsimp only
    rcases Helper.takeUp_cases helper shared merged with
      heq | ⟨unbound, command, unread, rfl, hcontrol, heq⟩
    · rw [heq]
      exact h
    · rw [heq]
      have hunread : "restart" ∉ List.replicate (merged + 1) command ++ unread := by
        rw [← hcontrol]
        exact h.control
      have hcommand : command ≠ "restart" := by
        rintro rfl
        exact hunread (by simp)
      refine ⟨h.waiting, h.expected, h.quiet, fun hmem => ?_, h.status, ?_⟩
      · exact hunread (List.mem_append_right _ hmem)
      · unfold Helper.obey
        split_ifs <;> exact hinert
  | proceed | fail =>
    cases helper with
    | idle unbound | stopping unbound =>
      cases unbound with
      | none => exact ⟨h.waiting, h.expected, h.quiet, h.control, h.status, rfl⟩
      | some conf => cases hinert
    | restarting | stopped | loaded => cases hinert

/-- Nothing but the bus ends the wait. -/
lemma Stranded.step {w : World} (h : Stranded w) (kind : ControlFile) {i : WorldInput}
    (hi : i.isNameEvent = false) :
    Stranded (w.step p config kind i) ∧ KeepsWaiting w.daemon (w.step p config kind i).daemon := by
  cases i with
  | dispatched event o isWireless =>
    refine h.serve ?_ (by simp)
    rintro event' heq
    obtain rfl := ServiceEvent.dispatched.inj heq
    obtain ⟨event, hevent⟩ := event
    constructor <;> rintro rfl <;> cases hi
  | statusChanged eventType readable o =>
    refine h.serve (by simp) ?_
    rintro eventType' content heq text htext
    obtain ⟨-, rfl⟩ := ServiceEvent.statusChanged.inj heq
    unfold World.content at htext
    split_ifs at htext
    · rw [← h.status]
      exact (Option.some.inj htext).symm
    · cases htext
  | perform =>
    refine ⟨h.perform kind, ?_⟩
    simp only [World.step, World.perform]
    split <;> exact keepsWaiting_refl h.waiting
  | helper step => exact ⟨h.help step, keepsWaiting_refl h.waiting⟩

lemma Stranded.runFrom {S : System World WorldInput} {kind : ControlFile}
    (hS : S.step = World.step p config kind) {w : World} (h : Stranded w) {js : List WorldInput}
    (hjs : ∀ j ∈ js, j.isNameEvent = false) : KeepsWaiting w.daemon (S.runFrom w js).daemon := by
  induction js generalizing w with
  | nil => exact keepsWaiting_refl h.waiting
  | cons j js ih =>
    obtain ⟨hstranded, hkeeps⟩ := @Stranded.step p config w h kind j (hjs j List.mem_cons_self)
    rw [← hS] at hstranded hkeeps
    exact hkeeps.trans (ih hstranded fun j' hj' => hjs j' (List.mem_cons_of_mem _ hj'))

/-! ## The end of the daemon -/

/-- While nothing is dispatched the daemon stays as it is, and the report stays or comes. -/
lemma endReported_runFrom {S : System World WorldInput} {kind : ControlFile}
    (hS : S.step = World.step p config kind) {w : World} (hwrites : w.writes = [])
    (h : EndReported w.files w.helper) {js : List WorldInput}
    (hjs : ∀ j ∈ js, j.isDispatch = false) :
    (S.runFrom w js).daemon = w.daemon ∧ (S.runFrom w js).writes = [] ∧
      EndReported (S.runFrom w js).files (S.runFrom w js).helper := by
  induction js generalizing w with
  | nil => exact ⟨rfl, hwrites, h⟩
  | cons j js ih =>
    have hj := hjs j List.mem_cons_self
    have hcons : S.runFrom w (j :: js) = S.runFrom (w.step p config kind j) js := by
      rw [← hS]
      rfl
    rw [hcons]
    have hstep : (w.step p config kind j).daemon = w.daemon ∧
        (w.step p config kind j).writes = [] ∧
        EndReported (w.step p config kind j).files (w.step p config kind j).helper := by
      cases j with
      | dispatched | statusChanged => cases hj
      | perform =>
        have hnothing : w.step p config kind .perform = w := by
          simp only [World.step, World.perform, hwrites]
        rw [hnothing]
        exact ⟨rfl, hwrites, h⟩
      | helper step => exact ⟨rfl, hwrites, h.help step⟩
    obtain ⟨hdaemon, hwrites', hreported⟩ := hstep
    rw [← hdaemon]
    exact ih hwrites' hreported fun j' hj' => hjs j' (List.mem_cons_of_mem _ hj')

/-- What is known of a daemon that waits for the end of its stop job and has performed its effects. -/
lemma Stopping.of_waiting {w : World} (h : Stopping p config w)
    (hwaiting : w.daemon.ctx.currentState = .waitingStopJob) (hwrites : w.writes = []) :
    w.daemon.ctx.expectedStatus = some "stopped" ∧ "stop" ∈ commandsOf w.daemon.log ∧
      "restart" ∉ w.files.control ∧ Reported w.files w.helper := by
  obtain ⟨⟨is, hdaemon⟩, performed, hlog, hheeded, hreported⟩ := h
  have horderly := @orderly_run p config is
  rw [← hdaemon] at horderly
  rcases horderly with ⟨hsubmitted, -⟩ | ⟨-, hexpected, hlast⟩
  · rw [hwaiting] at hsubmitted
    cases hsubmitted
  obtain ⟨hstop, hpending⟩ := hlast.mem
  rw [hwrites, List.append_nil] at hlog
  refine ⟨hexpected, hstop, ?_, hreported ⟨_, hlog ▸ hpending⟩⟩
  rcases hheeded (hlog ▸ hstop) with hunread | ⟨hnone, -⟩
  · rw [hunread]
    decide
  · rw [hnone]
    simp

/-- From every moment at which the daemon waits for the end of its stop job and has performed its
effects, in every interleaving with the helper.  If the cache is down and not about to be started while
the status file says `pending`, the daemon waits until it acquires or loses its name on the bus.
Otherwise the helper can finish without anything being dispatched, and whenever it has, the cache is
down and the next change of the status file ends the main loop. -/
theorem shutdown_completes (p : Platform) (config : Config) (files : SharedFiles) (helper : Helper)
    (is : List WorldInput)
    (hwaiting : ((world p config .overwritten files helper).run is).daemon.ctx.currentState =
      .waitingStopJob)
    (hwrites : ((world p config .overwritten files helper).run is).writes = []) :
    (((world p config .overwritten files helper).run is).isStranded = false →
      (∃ js, (∀ j ∈ js, j.isDispatch = false) ∧
        ((world p config .overwritten files helper).run (is ++ js)).isFinished = true) ∧
      ∀ js, (∀ j ∈ js, j.isDispatch = false) →
        let w := (world p config .overwritten files helper).run (is ++ js)
        w.isFinished = true → w.helper.unbound = none ∧
          ∀ o, let w' := w.step p config .overwritten (.statusChanged .changesDoneHint true o)
            w'.daemon.ctx.currentState = .stopping ∧ .mainLoopQuit ∈ w'.writes) ∧
    (((world p config .overwritten files helper).run is).isStranded = true →
      ∀ js, (∀ j ∈ js, j.isNameEvent = false) →
        KeepsWaiting ((world p config .overwritten files helper).run is).daemon
          ((world p config .overwritten files helper).run (is ++ js)).daemon) := by
  obtain ⟨hexpected, hstop, hcontrol, hreported⟩ :=
    (@stopping_run p config files helper is).of_waiting hwaiting hwrites
  refine ⟨fun hstranded => ⟨?_, fun js hjs => ?_⟩, fun hstranded js hjs => ?_⟩
  · obtain ⟨w', ⟨js, hjs, hrun⟩, -, hfinished⟩ := @proceeds_finished p config .overwritten files helper
      ((world p config .overwritten files helper).run is)
    rw [← System.run_append] at hrun
    exact ⟨js, fun j hj => (hjs j hj).1, by rw [hrun]; exact hfinished⟩
  · -- an inert helper has reported the end of the cache
    have hend : EndReported ((world p config .overwritten files helper).run is).files
        ((world p config .overwritten files helper).run is).helper := by
      intro hinert
      rw [World.isStranded, hinert, Bool.and_true, decide_eq_false_iff_not] at hstranded
      exact hreported.of_isInert hinert hstranded
    obtain ⟨hdaemon, hwrites', hend'⟩ := endReported_runFrom
      (S := world p config .overwritten files helper) rfl hwrites hend hjs
    rw [← System.run_append] at hdaemon hwrites' hend'
    intro w hfinished
    rw [← hdaemon] at hstop hwaiting hexpected
    obtain ⟨hdown, -⟩ := (stopping_run files helper (is ++ js)).down_of_isFinished hstop hfinished
    refine ⟨by rw [hdown]; rfl, fun o => ?_⟩
    rw [hdown] at hend'
    exact quits_of_report hwaiting hexpected hwrites' (hend' rfl) .overwritten o
  · rw [World.isStranded, Bool.and_eq_true, decide_eq_true_eq] at hstranded
    have hquiet : Hushed ((world p config .overwritten files helper).run is).writes := by
      rw [hwrites]
      simp [Hushed]
    rw [System.run_append]
    exact Stranded.runFrom (S := world p config .overwritten files helper) rfl
      ⟨hwaiting, hexpected, hquiet, hcontrol, hstranded.1, hstranded.2⟩ hjs

/-- The daemon is stopped while the helper restarts the cache. -/
theorem shutdown_completes_during_restart :
    let is := WorldInput.performed .nameAcquired isJobResult_nameAcquired 7 ++
      [.helper (.takeUp 0)] ++ WorldInput.performed .sigterm rfl 6
    ((world .plain .plain .overwritten .blank (.idle none)).run is).isStranded = false ∧
    (∃ js, (∀ j ∈ js, j.isDispatch = false) ∧
      ((world .plain .plain .overwritten .blank (.idle none)).run (is ++ js)).isFinished = true) ∧
    ∀ js, (∀ j ∈ js, j.isDispatch = false) →
      let w := (world .plain .plain .overwritten .blank (.idle none)).run (is ++ js)
      w.isFinished = true → w.helper.unbound = none ∧
        ∀ o, let w' := w.step .plain .plain .overwritten (.statusChanged .changesDoneHint true o)
          w'.daemon.ctx.currentState = .stopping ∧ .mainLoopQuit ∈ w'.writes := by
  intro is
  have hstranded :
      ((world .plain .plain .overwritten .blank (.idle none)).run is).isStranded = false := by
    decide
  exact ⟨hstranded, (shutdown_completes .plain .plain .blank (.idle none) is (by decide)
    (by decide)).1 hstranded⟩

/-- If SIGTERM arrives before the helper has read the `restart`, that command is replaced by the stop
job, and the cache, which has not been started, does not report its end. -/
example :
    let w := (world .plain .plain .overwritten .blank (.idle none)).run
      (WorldInput.performed .nameAcquired isJobResult_nameAcquired 7 ++
        WorldInput.performed .sigterm rfl 6)
    w.daemon.ctx.currentState = .waitingStopJob ∧ w.writes = [] ∧ w.isStranded = true := by
  decide

end Dnsconfd
