import Dnsconfd.Fsm.Effects
import Dnsconfd.ServiceManagement.StatusFile

/-!
# The helper that restarts the cache

The daemon does not restart the cache itself.  It writes unbound.conf, `pending` into the status file
and a command into the control file.  A helper takes the commands up: for a restart it stops a running
cache, which writes `stopped` into the status file, and starts it again, which loads unbound.conf and
then writes `ready`.  Wherever the cache ends in another way than by being stopped, `fail` is written.
`world` is the daemon, the helper and the files they share.  The steps of the helper are interleaved
with the single writes of the daemon in any way, and the daemon sees what the status file has when it
handles a change.  The path unit is taken to start the helper for every command that stays in
the control file, also for one that is written while the helper runs.

`write_to_file` truncates the control file, so that a command which has not been taken up is replaced
by the next one.  Here it is left open whether unread commands are replaced or kept in order
(`ControlFile`), since this does not matter for what a start job is taken to have done: the status
file does not tell which restart it is about.  If `pending` is written for a start job after an earlier
restart has loaded an older unbound.conf and before it has reported that, its `ready` is taken for the
end of the new start job (`stale_ready`).  In runs in which this does not happen the cache has loaded
the unbound.conf that was written last whenever the daemon leaves WAITING_FOR_START_JOB for a job that
is done (`start_job_attributed`).
-/

namespace Dnsconfd

open Library

variable {p : Platform} {config : Config}

/-! ## Files and helper -/

/-- unbound.conf, with the number of times that it has been written. -/
structure ConfFile where
  version : ℕ
  lines : List ConfLine
deriving DecidableEq

/-- The files that the daemon and the helper share; of the control file the commands that have not
been taken up. -/
structure SharedFiles where
  conf : ConfFile
  status : String
  control : List String
deriving DecidableEq

/-- What becomes of unread commands when the next one is written: they are replaced, as by
`write_to_file`, or kept before it. -/
inductive ControlFile where
  | overwritten
  | queued

/-- The unread commands after one more has been written. -/
def ControlFile.add : ControlFile → List String → String → List String
  | overwritten, _, command => [command]
  | queued, unread, command => unread ++ [command]

/-- What an effect of the daemon does to the files. -/
def SharedFiles.write (kind : ControlFile) (files : SharedFiles) : Effect → SharedFiles
  | .confWritten lines => { files with conf := ⟨files.conf.version + 1, lines⟩ }
  | .statusWritten content => { files with status := content }
  | .controlWritten command => { files with control := kind.add files.control command }
  | _ => files

/-- The helper, with the configuration that the running cache has loaded: between two commands, with
a command taken up, with the cache stopped for a restart, and with the cache started again but not
reported yet. -/
inductive Helper where
  | idle (unbound : Option ConfFile)
  | restarting (unbound : Option ConfFile)
  | stopping (unbound : Option ConfFile)
  | stopped
  | loaded (unbound : ConfFile)
deriving DecidableEq

/-- What the running cache has loaded. -/
def Helper.unbound : Helper → Option ConfFile
  | idle unbound => unbound
  | restarting unbound => unbound
  | stopping unbound => unbound
  | stopped => none
  | loaded unbound => some unbound

/-- What the cache has loaded when it has been started again and this is not reported yet. -/
def Helper.unreported : Helper → Option ConfFile
  | loaded unbound => some unbound
  | _ => none

/-- The helper takes up the next command, together with a number of equal ones behind it, or goes on
with the one it has; or the cache fails, in the hands of the helper or by itself. -/
inductive HelperStep where
  | takeUp (merged : ℕ)
  | proceed
  | fail

/-- What `dnsconfd-unbound-control.sh` does with a command. -/
def Helper.obey (unbound : Option ConfFile) (command : String) : Helper :=
  if command = "stop" then .stopping unbound
  else if command = "restart" then .restarting unbound
  else .idle unbound

/-- A step of the helper; one that is not possible does nothing.  Stopping a cache that does not run
reports nothing. -/
def Helper.step (helper : Helper) (files : SharedFiles) : HelperStep → Helper × SharedFiles
  | .takeUp merged =>
    match helper, files.control with
    | .idle unbound, command :: unread =>
      if (List.replicate merged command).isPrefixOf unread then
        (.obey unbound command, { files with control := unread.drop merged })
      else (helper, files)
    | _, _ => (helper, files)
  | .proceed =>
    match helper with
    | .restarting (some _) => (.stopped, { files with status := "stopped\n" })
    | .restarting none => (.stopped, files)
    | .stopping (some _) => (.idle none, { files with status := "stopped\n" })
    | .stopping none => (.idle none, files)
    | .stopped => (.loaded files.conf, files)
    | .loaded unbound => (.idle (some unbound), { files with status := "ready\n" })
    | .idle _ => (helper, files)
  | .fail =>
    match helper with
    | .restarting (some _) => (.stopped, { files with status := "fail\n" })
    | .idle (some _) | .stopping (some _) | .stopped | .loaded _ =>
      (.idle none, { files with status := "fail\n" })
    | .idle none | .restarting none | .stopping none => (helper, files)

lemma Helper.unbound_obey (unbound : Option ConfFile) (command : String) :
    (Helper.obey unbound command).unbound = unbound := by
  unfold Helper.obey
  split_ifs <;> rfl

lemma Helper.unreported_obey (unbound : Option ConfFile) (command : String) :
    (Helper.obey unbound command).unreported = none := by
  unfold Helper.obey
  split_ifs <;> rfl

/-- The helper takes up a command, or nothing happens. -/
lemma Helper.takeUp_cases (helper : Helper) (files : SharedFiles) (merged : ℕ) :
    helper.step files (.takeUp merged) = (helper, files) ∨
    ∃ unbound command unread, helper = .idle unbound ∧
      files.control = List.replicate (merged + 1) command ++ unread ∧
      helper.step files (.takeUp merged) =
        (.obey unbound command, { files with control := unread }) := by
  obtain ⟨conf, status, control⟩ := files
  cases helper with
  | idle unbound =>
    cases control with
    | nil => exact Or.inl rfl
    | cons command unread =>
      simp only [Helper.step, List.isPrefixOf_iff_prefix]
      split_ifs with htaken
      · obtain ⟨rest, rfl⟩ := htaken
        refine Or.inr ⟨unbound, command, rest, rfl, ?_, ?_⟩
        · rw [List.replicate_succ, List.cons_append]
        · rw [List.drop_left' List.length_replicate]
      · exact Or.inl rfl
  | restarting | stopping | stopped | loaded => exact Or.inl rfl

/-- A failure is reported unless there is nothing that could fail, and then nothing is left to be
reported. -/
lemma Helper.fail_cases (helper : Helper) (files : SharedFiles) :
    (helper.unbound = none ∧ helper.step files .fail = (helper, files)) ∨
    ∃ helper' : Helper, helper'.unreported = none ∧
      helper.step files .fail = (helper', { files with status := "fail\n" }) := by
  cases helper with
  | idle unbound | restarting unbound | stopping unbound =>
    cases unbound with
    | none => exact Or.inl ⟨rfl, rfl⟩
    | some conf => exact Or.inr ⟨_, rfl, rfl⟩
  | stopped | loaded => exact Or.inr ⟨_, rfl, rfl⟩

/-! ## The daemon and the helper -/

/-- The daemon, those of its effects that are still to be performed, the files and the helper. -/
structure World where
  daemon : Daemon
  writes : List Effect
  files : SharedFiles
  helper : Helper

/-- What happens next: the main loop dispatches an event or a change of the status file, the daemon
performs its next effect, or the helper makes a step. -/
inductive WorldInput where
  | dispatched (event : { event : DaemonEvent // event.isJobResult = false }) (outcomes : Outcomes)
      (isWireless : String → Bool)
  | statusChanged (eventType : FileMonitorEvent) (readable : Bool) (outcomes : Outcomes)
  | perform
  | helper (step : HelperStep)

/-- What `g_file_get_contents` reads from the status file. -/
def World.content (w : World) (readable : Bool) : Option String :=
  if readable then some w.files.status else none

/-- The main loop dispatches something to the daemon; only when it has returned from what was
dispatched before. -/
def World.serve (p : Platform) (config : Config) (w : World) (i : ServiceInput) : World :=
  if w.writes.isEmpty then
    { w with daemon := w.daemon.serve p config i
             writes := (w.daemon.serve p config i).log.drop w.daemon.log.length }
  else w

/-- The daemon performs its next effect. -/
def World.perform (kind : ControlFile) (w : World) : World :=
  match w.writes with
  | [] => w
  | e :: rest => { w with writes := rest, files := w.files.write kind e }

/-- The helper makes a step. -/
def World.help (w : World) (step : HelperStep) : World :=
  { w with helper := (w.helper.step w.files step).1, files := (w.helper.step w.files step).2 }

/-- One step of the daemon or the helper. -/
def World.step (p : Platform) (config : Config) (kind : ControlFile) (w : World) :
    WorldInput → World
  | .dispatched event o isWireless => w.serve p config ⟨.dispatched event, o, isWireless⟩
  | .statusChanged eventType readable o =>
    w.serve p config ⟨.statusChanged eventType (w.content readable), o, fun _ => false⟩
  | .perform => w.perform kind
  | .helper step => w.help step

/-- The daemon with a helper, the files and the helper as they are when the daemon starts. -/
def world (p : Platform) (config : Config) (kind : ControlFile) (files : SharedFiles)
    (helper : Helper) : System World WorldInput where
  init := ⟨.initial, [], files, helper⟩
  step := World.step p config kind

/-- The daemon writes `pending` for a start job. -/
def World.writesPending (w : World) : WorldInput → Bool
  | .perform =>
    match w.writes with
    | .statusWritten _ :: _ => w.daemon.ctx.currentState = .waitingForStartJob
    | _ => false
  | _ => false

/-- The condition: when `pending` is written for a start job, the cache has not been started with an
older unbound.conf that it still has to report. -/
def NoEarlierReport (w : World) (i : WorldInput) : Prop :=
  w.writesPending i = true → ∀ conf ∈ w.helper.unreported, conf = w.files.conf

instance (w : World) (i : WorldInput) : Decidable (NoEarlierReport w i) :=
  inferInstanceAs (Decidable (_ → _))

/-- The daemon leaves WAITING_FOR_START_JOB on JOB_SUCCESS. -/
def EndsStartJob (p : Platform) (config : Config) (kind : ControlFile) (w : World)
    (i : WorldInput) : Prop :=
  .transitionMade .waitingForStartJob .jobSuccess ∈
    (w.step p config kind i).daemon.log.drop w.daemon.log.length

/-! ## What a step of the daemon writes -/

/-- The effects that write unbound.conf or the status file. -/
def Effect.isSharedWrite : Effect → Bool
  | .confWritten _ => true
  | .statusWritten _ => true
  | _ => false

/-- Neither unbound.conf nor the status file is written. -/
def Settled (writes : List Effect) : Prop :=
  ∀ e ∈ writes, e.isSharedWrite = false

/-- The last thing written to unbound.conf or the status file is `pending`. -/
def EndsPending (writes : List Effect) : Prop :=
  ∃ before after, writes = before ++ .statusWritten "pending" :: after ∧ Settled after

lemma settled_nil : Settled [] := by
  simp [Settled]

lemma settled_singleton {e : Effect} : Settled [e] ↔ e.isSharedWrite = false := by
  simp [Settled]

lemma Settled.append {writes l : List Effect} (h : Settled writes) (hl : Settled l) :
    Settled (writes ++ l) := by
  intro e he
  rcases List.mem_append.mp he with he | he
  · exact h e he
  · exact hl e he

lemma EndsPending.append {writes l : List Effect} (h : EndsPending writes) (hl : Settled l) :
    EndsPending (writes ++ l) := by
  obtain ⟨before, after, rfl, hafter⟩ := h
  exact ⟨before, after ++ l, by simp, hafter.append hl⟩

lemma EndsPending.prepend {writes : List Effect} (h : EndsPending writes) (l : List Effect) :
    EndsPending (l ++ writes) := by
  obtain ⟨before, after, rfl, hafter⟩ := h
  exact ⟨l ++ before, after, by simp, hafter⟩

/-- What a daemon at rest in `d` has written on the way to `m`: it waits for a start job either
because it did before and has written nothing since, or because it has submitted one. -/
structure Submission (d : Daemon) (m : Moment) (writes : List Effect) : Prop where
  log : m.log = d.log ++ writes
  waiting : m.ctx.currentState = .waitingForStartJob →
    (d.ctx.currentState = .waitingForStartJob ∧ m.ctx.expectedStatus = d.ctx.expectedStatus ∧
      Settled writes) ∨ (m.ctx.expectedStatus = some "ready" ∧ EndsPending writes)
  submitting : m.ctx.currentState = .submittingStartJob → m.event = .success →
    m.ctx.expectedStatus = some "ready" ∧ EndsPending writes

lemma submission_refl (d : Daemon) : Submission d d.moment [] where
  log := (List.append_nil _).symm
  waiting hs := Or.inl ⟨hs, rfl, settled_nil⟩
  submitting _ he := by cases he

/-- A change that keeps the state and writes nothing. -/
lemma Submission.keep {d : Daemon} {a b : Moment} {writes l : List Effect}
    (h : Submission d a writes) (hl : Settled l) (hlog : b.log = a.log ++ l)
    (hstate : b.ctx.currentState = a.ctx.currentState)
    (hexpected : b.ctx.expectedStatus = a.ctx.expectedStatus) (hevent : b.event ≠ .success) :
    Submission d b (writes ++ l) where
  log := by rw [hlog, h.log, List.append_assoc]
  waiting hs := by
    rw [hexpected]
    rcases h.waiting (hstate ▸ hs) with ⟨hd, he, hw⟩ | ⟨he, hw⟩
    · exact Or.inl ⟨hd, he, hw.append hl⟩
    · exact Or.inr ⟨he, hw.append hl⟩
  submitting _ he := absurd he hevent

/-- A change to a state in which no start job is submitted or awaited. -/
lemma Submission.leave {d : Daemon} {a b : Moment} {writes l : List Effect}
    (h : Submission d a writes) (hlog : b.log = a.log ++ l)
    (hwaiting : b.ctx.currentState ≠ .waitingForStartJob)
    (hsubmitting : b.ctx.currentState ≠ .submittingStartJob) : Submission d b (writes ++ l) where
  log := by rw [hlog, h.log, List.append_assoc]
  waiting hs := absurd hs hwaiting
  submitting hs := absurd hs hsubmitting

/-- A submitted job ends with `pending` in the status file. -/
lemma endsPending_setServiceStatus {expectedStatus command : String} {o : ServiceOutcome}
    {ctx : Context} (h : (setServiceStatus expectedStatus command o ctx).event = .success) :
    EndsPending (setServiceStatus expectedStatus command o ctx).effects := by
  revert h
  unfold setServiceStatus
  dsimp only
  split_ifs with hstatus hcontrol
  · intro h
    cases h
  · intro h
    cases h
  · intro _
    exact ⟨[], [.controlWritten command], rfl, settled_singleton.mpr rfl⟩

lemma Submission.edge {d : Daemon} {o : Outcomes} {ctx : Context} {event : FsmEvent}
    {log writes : List Effect} {answering : Bool} {r : ActionResult}
    (h : Submission d ⟨⟨ctx, event, log⟩, answering⟩ writes) (hedge : Edge p config o ctx event r) :
    Submission d
      ⟨⟨r.ctx, r.event, log ++ .transitionMade ctx.currentState event :: r.effects⟩, answering⟩
      (writes ++ .transitionMade ctx.currentState event :: r.effects) := by
  have hlog : log = d.log ++ writes := h.log
  have happend : ∀ l, log ++ l = d.log ++ (writes ++ l) := fun l => by
    rw [hlog, List.append_assoc]
  cases hedge with
  | startJob hs =>
    refine ⟨happend _, fun hwaiting => ?_, fun _ hsuccess => ?_⟩
    · simp [ActionResult.enter] at hwaiting
    · refine ⟨by simp [ActionResult.enter], ?_⟩
      have hpending := endsPending_setServiceStatus hsuccess
      exact (hpending.prepend [.transitionMade ctx.currentState .success]).prepend writes
  | startJobSubmitted hs =>
    obtain ⟨hready, hpending⟩ := h.submitting hs rfl
    refine ⟨happend _, fun _ => Or.inr ⟨hready, ?_⟩, fun hs => by cases hs⟩
    exact hpending.append (settled_singleton.mpr rfl)
  | refresh hs =>
    exact h.keep (settled_singleton.mpr rfl) rfl (by simp [updateContext, setDynamicServers])
      (by simp [updateContext, setDynamicServers]) (by simp)
  | ignored hs => exact h.keep (settled_singleton.mpr rfl) rfl rfl rfl (by simp)
  | quit hs => exact h.leave rfl (by simp [hs]) (by simp [hs])
  | kickoff | abandon | startJobDone | startJobFailed | updateRunning | resolvConfSet
  | resolvConfFailed | updated | updateFailed | stopRunning | stopJob | stopJobSubmitted =>
    exact h.leave rfl (by simp [ActionResult.enter]) (by simp [ActionResult.enter])

lemma Submission.micro {d : Daemon} {ok : Machine → Prop} {a b : Moment}
    (h : ∃ writes, Submission d a writes) (hstep : Micro p config ok a b) :
    ∃ writes, Submission d b writes := by
  obtain ⟨writes, h⟩ := h
  cases hstep with
  | edge hok hedge => exact ⟨_, h.edge hedge⟩
  | receive he hu =>
    refine ⟨_, h.keep settled_nil (List.append_nil _).symm rfl rfl ?_⟩
    rintro rfl
    cases he
  | skipped => exact ⟨_, h.keep settled_nil (List.append_nil _).symm rfl rfl (by simp)⟩
  | parsed | refused | replied | rejected | reloadReplied | nameLost =>
    exact ⟨_, h.keep (settled_singleton.mpr rfl) rfl rfl rfl (by simp)⟩

/-- What a step of the daemon writes if it ends in WAITING_FOR_START_JOB. -/
lemma submission_step (d : Daemon) (i : Input) :
    Submission d (d.step p config i).moment ((d.step p config i).log.drop d.log.length) := by
  obtain ⟨writes, hwrites⟩ := invariant_of_step (J := fun a => ∃ writes, Submission d a writes)
    (fun _ _ h hstep => Submission.micro h hstep) ⟨[], submission_refl d⟩ i
  have hlog : (d.step p config i).log = d.log ++ writes := hwrites.log
  have hdrop : (d.step p config i).log.drop d.log.length = writes := by
    rw [hlog, List.drop_left]
  rw [hdrop]
  exact hwrites

/-! ## When a start job ends -/

/-- JOB_SUCCESS is handled first, and only if the job is reported done. -/
lemma iterationsMeet_jobSuccess (d : Daemon) (i : Input) :
    IterationsMeet p config (fun m => m.event = .jobSuccess →
      m.ctx.currentState = d.ctx.currentState ∧ i.event = .jobFinished "done") d i := by
  intro m hm
  refine loopMeets_of_preserved (fun m m' _ hbody => ?_) maxIterations m ?_
  · obtain ⟨r, hedge, rfl⟩ := edge_of_transition hbody
    exact fun hsuccess => absurd hsuccess hedge.event_ne_jobSuccess
  · obtain ⟨event, o, isWireless⟩ := i
    cases event with
    | nameLost => cases hm
    | reloadCall | nameAcquired | sigterm =>
      obtain rfl := Option.some.inj hm
      simp
    | updateCall servers mode =>
      simp only [Daemon.arrival] at hm
      cases hdecode : decodeUpdateCall p isWireless servers mode with
      | error error => simp [hdecode] at hm
      | ok update =>
        rw [hdecode] at hm
        obtain rfl := Option.some.inj hm
        simp
    | jobFinished result =>
      obtain rfl := Option.some.inj hm
      intro hsuccess
      have hdone : jobEvent result = .jobSuccess := hsuccess
      unfold jobEvent at hdone
      split_ifs at hdone with hstopped hresult
      exact ⟨rfl, by rw [hresult]⟩

/-- Small steps report the iterations of the state machine, and no others. -/
lemma Micro.reported {ok : Machine → Prop} {a b : Moment} (h : Micro p config ok a b) :
    ∃ l, b.log = a.log ++ l ∧ ∀ state event, .transitionMade state event ∈ l →
      a.ctx.currentState = state ∧ a.event = event ∧ ok a.toMachine := by
  cases h with
  | edge hok hedge =>
    refine ⟨_, rfl, fun state event hmem => ?_⟩
    rcases List.mem_cons.mp hmem with heq | hmem
    · injection heq with hstate hevent
      exact ⟨hstate.symm, hevent.symm, hok⟩
    · exact absurd (hedge.isOf hmem) (by simp [Effect.isOf])
  | receive | skipped => exact ⟨[], (List.append_nil _).symm, by simp⟩
  | parsed | refused | replied | rejected | reloadReplied | nameLost =>
    refine ⟨_, rfl, fun state event hmem => ?_⟩
    cases List.mem_singleton.mp hmem

/-- A step in which the daemon leaves WAITING_FOR_START_JOB on JOB_SUCCESS starts there, with a
report that the job is done. -/
lemma jobDone_of_step {d : Daemon} {i : Input}
    (h : .transitionMade .waitingForStartJob .jobSuccess ∈
      (d.step p config i).log.drop d.log.length) :
    d.ctx.currentState = .waitingForStartJob ∧ i.event = .jobFinished "done" := by
  have hinvariant : ∃ l, (d.step p config i).log = d.log ++ l ∧
      (.transitionMade .waitingForStartJob .jobSuccess ∈ l →
        d.ctx.currentState = .waitingForStartJob ∧ i.event = .jobFinished "done") := by
    refine invariant_of_steps (J := fun a => ∃ l, a.log = d.log ++ l ∧
      (.transitionMade .waitingForStartJob .jobSuccess ∈ l →
        d.ctx.currentState = .waitingForStartJob ∧ i.event = .jobFinished "done"))
      (fun a b ha hstep => ?_) ⟨[], (List.append_nil _).symm, by simp⟩
      (micro_step (iterationsMeet_jobSuccess d i))
    obtain ⟨l, hlog, hl⟩ := ha
    obtain ⟨l', hlog', hl'⟩ := hstep.reported
    refine ⟨l ++ l', by rw [hlog', hlog, List.append_assoc], fun hmem => ?_⟩
    rcases List.mem_append.mp hmem with hmem | hmem
    · exact hl hmem
    · obtain ⟨hstate, hevent, hok⟩ := hl' _ _ hmem
      obtain ⟨hsame, hdone⟩ := hok hevent
      exact ⟨hsame.symm.trans hstate, hdone⟩
  obtain ⟨l, hlog, hl⟩ := hinvariant
  rw [hlog, List.drop_left] at h
  exact hl h

/-! ## Runs -/

/-- The cache reports, and has reported, the unbound.conf that was written last. -/
structure ReportsCurrent (files : SharedFiles) (helper : Helper) : Prop where
  unreported : ∀ conf ∈ helper.unreported, conf = files.conf
  ready : classifyStatus (some "ready") files.status = some "done" →
    helper.unbound = some files.conf

/-- Nothing is left to be reported. -/
lemma reportsCurrent_of_reported {files : SharedFiles} {helper : Helper}
    (h : helper.unreported = none) (hready : classifyStatus (some "ready") files.status =
      some "done" → helper.unbound = some files.conf) : ReportsCurrent files helper := by
  refine ⟨fun conf hconf => ?_, hready⟩
  rw [h] at hconf
  cases hconf

/-- The helper keeps it so, whatever it does. -/
lemma ReportsCurrent.step {files : SharedFiles} {helper : Helper} (h : ReportsCurrent files helper)
    (step : HelperStep) :
    ReportsCurrent (helper.step files step).2 (helper.step files step).1 := by
  have hstopped : classifyStatus (some "ready") "stopped\n" ≠ some "done" := by decide
  have hfail : classifyStatus (some "ready") "fail\n" ≠ some "done" := by decide
  cases step with
  | takeUp merged =>
    rcases Helper.takeUp_cases helper files merged with heq | ⟨unbound, command, unread, rfl, -, heq⟩
    · rw [heq]
      exact h
    · rw [heq]
      refine reportsCurrent_of_reported (Helper.unreported_obey unbound command) fun hready => ?_
      rw [Helper.unbound_obey]
      exact h.ready hready
  | proceed =>
    cases helper with
    | idle unbound => exact h
    | restarting unbound =>
      cases unbound with
      | none => exact reportsCurrent_of_reported rfl h.ready
      | some conf => exact reportsCurrent_of_reported rfl (fun hready => absurd hready hstopped)
    | stopping unbound =>
      cases unbound with
      | none => exact reportsCurrent_of_reported rfl h.ready
      | some conf => exact reportsCurrent_of_reported rfl (fun hready => absurd hready hstopped)
    | stopped => exact ⟨fun conf hconf => (Option.some.inj hconf).symm, fun _ => rfl⟩
    | loaded conf =>
      have hconf : conf = files.conf := h.unreported conf rfl
      exact reportsCurrent_of_reported rfl (fun _ => congrArg some hconf)
  | fail =>
    rcases Helper.fail_cases helper files with ⟨-, heq⟩ | ⟨helper', hreported, heq⟩
    · rw [heq]
      exact h
    · rw [heq]
      exact reportsCurrent_of_reported hreported (fun hready => absurd hready hfail)

/-- The invariant: while the daemon waits for a start job, it expects `ready`, and either the cache
reports the unbound.conf written last or `pending` is still to be written. -/
structure AwaitsReady (w : World) : Prop where
  expected : w.daemon.ctx.currentState = .waitingForStartJob →
    w.daemon.ctx.expectedStatus = some "ready"
  current : w.daemon.ctx.currentState = .waitingForStartJob →
    (Settled w.writes ∧ ReportsCurrent w.files w.helper) ∨ EndsPending w.writes

lemma not_endsPending_nil : ¬ EndsPending [] := by
  rintro ⟨before, after, h, -⟩
  simp at h

lemma AwaitsReady.serve {w : World} (h : AwaitsReady w) (i : ServiceInput) :
    AwaitsReady (w.serve p config i) := by
  unfold World.serve
  split_ifs with hempty
  · have hnil : w.writes = [] := List.isEmpty_iff.mp hempty
    have hcurrent : w.daemon.ctx.currentState = .waitingForStartJob →
        ReportsCurrent w.files w.helper := by
      intro hs
      rcases h.current hs with ⟨-, hcurrent⟩ | hpending
      · exact hcurrent
      · rw [hnil] at hpending
        exact absurd hpending not_endsPending_nil
    have hstep : ∀ input : Input, AwaitsReady
        { w with daemon := w.daemon.step p config input
                 writes := (w.daemon.step p config input).log.drop w.daemon.log.length } := by
      intro input
      have hsubmission : Submission w.daemon (w.daemon.step p config input).moment
          ((w.daemon.step p config input).log.drop w.daemon.log.length) :=
        submission_step w.daemon input
      refine ⟨fun hs => ?_, fun hs => ?_⟩
      · rcases hsubmission.waiting hs with ⟨hd, hsame, -⟩ | ⟨hready, -⟩
        · exact hsame.trans (h.expected hd)
        · exact hready
      · rcases hsubmission.waiting hs with ⟨hd, -, hsettled⟩ | ⟨-, hpending⟩
        · exact Or.inl ⟨hsettled, hcurrent hd⟩
        · exact Or.inr hpending
    rcases serve_cases p config w.daemon i with ⟨event, -, -, hserve⟩ | ⟨result, -, hserve⟩ |
      ⟨-, hserve⟩
    · rw [hserve]
      exact hstep _
    · rw [hserve]
      exact hstep _
    · rw [hserve, List.drop_length]
      exact ⟨h.expected, fun hs => Or.inl ⟨settled_nil, hcurrent hs⟩⟩
  · exact h

/-- Other effects leave unbound.conf and the status file as they are. -/
lemma ReportsCurrent.write {kind : ControlFile} {files : SharedFiles} {helper : Helper} {e : Effect}
    (h : ReportsCurrent files helper) (he : e.isSharedWrite = false) :
    ReportsCurrent (files.write kind e) helper := by
  cases e with
  | confWritten | statusWritten => cases he
  | _ => exact ⟨h.unreported, h.ready⟩

lemma AwaitsReady.perform {kind : ControlFile} {w : World} (h : AwaitsReady w)
    (hok : NoEarlierReport w .perform) : AwaitsReady (w.perform kind) := by
  obtain ⟨d, writes, files, helper⟩ := w
  cases writes with
  | nil => exact h
  | cons e rest =>
    refine ⟨h.expected, fun hs => ?_⟩
    rcases h.current hs with ⟨hsettled, hcurrent⟩ | ⟨before, after, heq, hafter⟩
    · refine Or.inl ⟨fun e' he' => hsettled e' (List.mem_cons_of_mem e he'), ?_⟩
      exact hcurrent.write (hsettled e List.mem_cons_self)
    · cases before with
      | nil =>
        -- the start job becomes pending, and nothing of an earlier one is left to be reported
        obtain ⟨rfl, rfl⟩ := List.cons.inj heq
        have hwrites : World.writesPending ⟨d, .statusWritten "pending" :: rest, files, helper⟩
            .perform = true := decide_eq_true hs
        have hpending : classifyStatus (some "ready") "pending" ≠ some "done" := by decide
        exact Or.inl ⟨hafter, hok hwrites, fun hready => absurd hready hpending⟩
      | cons e' before =>
        obtain ⟨-, hrest⟩ := List.cons.inj heq
        exact Or.inr ⟨before, after, hrest, hafter⟩

lemma AwaitsReady.help {w : World} (h : AwaitsReady w) (step : HelperStep) :
    AwaitsReady (w.help step) := by
  refine ⟨h.expected, fun hs => ?_⟩
  rcases h.current hs with ⟨hsettled, hcurrent⟩ | hpending
  · exact Or.inl ⟨hsettled, hcurrent.step step⟩
  · exact Or.inr hpending

lemma AwaitsReady.step {kind : ControlFile} {w : World} {i : WorldInput} (h : AwaitsReady w)
    (hok : NoEarlierReport w i) : AwaitsReady (w.step p config kind i) := by
  cases i with
  | dispatched | statusChanged => exact h.serve _
  | perform => exact h.perform hok
  | helper step => exact h.help step

/-- If the daemon ends a start job, it has read from the status file that it is done. -/
lemma observation_of_serve {w : World} {i : ServiceInput}
    (h : .transitionMade .waitingForStartJob .jobSuccess ∈
      (w.serve p config i).daemon.log.drop w.daemon.log.length) :
    w.writes = [] ∧ w.daemon.ctx.currentState = .waitingForStartJob ∧
      i.observation w.daemon.ctx.expectedStatus = some "done" := by
  unfold World.serve at h
  split_ifs at h with hempty
  · have hnil : w.writes = [] := List.isEmpty_iff.mp hempty
    rcases serve_cases p config w.daemon i with ⟨event, hcall, -, hserve⟩ | ⟨result, hsome, hserve⟩ |
      ⟨-, hserve⟩
    · simp only [hserve] at h
      obtain ⟨-, hevent⟩ := jobDone_of_step h
      rw [show event = .jobFinished "done" from hevent] at hcall
      cases hcall
    · simp only [hserve] at h
      obtain ⟨hs, hevent⟩ := jobDone_of_step h
      rw [DaemonEvent.jobFinished.inj hevent] at hsome
      exact ⟨hnil, hs, hsome⟩
    · simp only [hserve, List.drop_length] at h
      cases h
  · rw [List.drop_length] at h
    cases h

lemma ready_of_endsStartJob {kind : ControlFile} {w : World} {i : WorldInput}
    (h : EndsStartJob p config kind w i) :
    w.writes = [] ∧ w.daemon.ctx.currentState = .waitingForStartJob ∧
      classifyStatus w.daemon.ctx.expectedStatus w.files.status = some "done" := by
  unfold EndsStartJob at h
  cases i with
  | dispatched event o isWireless =>
    obtain ⟨-, -, hobserved⟩ := observation_of_serve h
    cases hobserved
  | statusChanged eventType readable o =>
    obtain ⟨hnil, hs, hobserved⟩ := observation_of_serve h
    refine ⟨hnil, hs, ?_⟩
    simp only [ServiceInput.observation, observe, World.content] at hobserved
    split_ifs at hobserved
    · exact hobserved
    · cases hobserved
  | perform =>
    have hdaemon : (w.perform kind).daemon = w.daemon := by
      unfold World.perform
      split <;> rfl
    simp only [World.step, hdaemon, List.drop_length] at h
    cases h
  | helper step =>
    simp only [World.step, World.help, List.drop_length] at h
    cases h

/-- In every run of the daemon and the helper in which `pending` is never written for a start job
while the cache still has to report that it has been started with an older unbound.conf: whenever the
daemon leaves WAITING_FOR_START_JOB on JOB_SUCCESS, the running cache has loaded the unbound.conf
that was written last. -/
theorem start_job_attributed (p : Platform) (config : Config) (kind : ControlFile)
    (files : SharedFiles) (helper : Helper) (is : List WorldInput) (i : WorldInput)
    (his : (world p config kind files helper).Meets NoEarlierReport
      (world p config kind files helper).init is)
    (hends : EndsStartJob p config kind ((world p config kind files helper).run is) i) :
    ((world p config kind files helper).run is).helper.unbound =
      some ((world p config kind files helper).run is).files.conf := by
  have hinit : AwaitsReady (world p config kind files helper).init := by
    have hstarting : (world p config kind files helper).init.daemon.ctx.currentState = .starting :=
      rfl
    constructor <;> simp [hstarting]
  have hrun : AwaitsReady ((world p config kind files helper).run is) :=
    (world p config kind files helper).invariant_of_meets (fun _ _ hw hok => hw.step hok) hinit his
  obtain ⟨hnil, hs, hdone⟩ := ready_of_endsStartJob hends
  rw [hrun.expected hs] at hdone
  rcases hrun.current hs with ⟨-, hcurrent⟩ | hpending
  · exact hcurrent.ready hdone
  · rw [hnil] at hpending
    exact absurd hpending not_endsPending_nil

/-- The files and the helper before the daemon is started for the first time. -/
def SharedFiles.blank : SharedFiles :=
  ⟨⟨0, []⟩, "", []⟩

/-- The daemon handles an event, of which the operations succeed, and performs its effects. -/
def WorldInput.performed (event : DaemonEvent) (h : event.isJobResult = false) (effects : ℕ) :
    List WorldInput :=
  .dispatched ⟨event, h⟩ .allOk (fun _ => false) :: List.replicate effects .perform

lemma isJobResult_nameAcquired : DaemonEvent.nameAcquired.isJobResult = false :=
  rfl

/-- The daemon is started, and the helper restarts the cache up to the point where it has loaded
unbound.conf. -/
def WorldInput.startedAndLoaded : List WorldInput :=
  performed .nameAcquired isJobResult_nameAcquired 7 ++
    [.helper (.takeUp 0), .helper .proceed, .helper .proceed]

/-- The cache reports that it is ready, and the daemon reads that. -/
theorem start_job_attributed_once_ready :
    let w := (world .plain .plain .queued .blank (.idle none)).run
      (WorldInput.startedAndLoaded ++ [.helper .proceed])
    EndsStartJob .plain .plain .queued w (.statusChanged .changesDoneHint true .allOk) ∧
      w.helper.unbound = some w.files.conf := by
  have hends : EndsStartJob .plain .plain .queued ((world .plain .plain .queued .blank (.idle none)).run
      (WorldInput.startedAndLoaded ++ [.helper .proceed])) (.statusChanged .changesDoneHint true .allOk) := by
    unfold EndsStartJob
    decide
  exact ⟨hends, start_job_attributed .plain .plain .queued .blank (.idle none) _ _ (by decide) hends⟩

/-- While the cache has loaded unbound.conf and not yet reported that, an Update brings a server and
a Reload writes a new unbound.conf.  The daemon takes the report for the new start job, with the old
unbound.conf loaded. -/
theorem stale_ready :
    let w := (world .plain .plain .queued .blank (.idle none)).run
      (WorldInput.startedAndLoaded ++
        WorldInput.performed (.updateCall [[("address", .byteString [192, 0, 2, 1])]] 0) rfl 3 ++
        WorldInput.performed .reloadCall rfl 8 ++ [.helper .proceed])
    EndsStartJob .plain .plain .queued w (.statusChanged .changesDoneHint true .allOk) ∧
      w.files.conf.version = 2 ∧ w.helper.unbound.map ConfFile.version = some 1 ∧
      w.helper.unbound.map ConfFile.lines ≠ some w.files.conf.lines := by
  unfold EndsStartJob
  decide

end Dnsconfd
