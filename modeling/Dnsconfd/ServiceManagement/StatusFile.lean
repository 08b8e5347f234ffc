import Dnsconfd.DbusServer.Daemon

/-!
# Observing the cache

The cache reports through a status file, which `on_file_changed` reads whenever the file monitor
tells that it has changed.  What it reads is compared with the status that the last job is expected
to end in: an observation is `done`, `fail` or `stopped` and is handed to `on_systemd_job_finished`;
any other content is ignored.

`service` is the daemon together with the status file's readings as inputs and the last observation
as a ghost.  The machine enters RUNNING only on the observation `done`, and `stopped` makes it leave
RUNNING.  An observation `fail` is refused there and the refusal is ignored, so the machine stays in
RUNNING with a failed cache (`crash_ignored_while_running`); in runs without such an observation the
last one is `done` whenever the machine runs (`running_means_done`).
-/

namespace Dnsconfd

open Library

variable {p : Platform} {config : Config}

/-! ## Reading the status file -/

/-- `g_ascii_isspace`: tabulator, line feed, form feed, carriage return and blank. -/
def gAsciiIsspace (c : Char) : Bool :=
  [9, 10, 12, 13, 32].contains c.toNat

/-- `g_strstrip`. -/
def gStrstrip (text : String) : String :=
  String.ofList
    ((text.toList.dropWhile gAsciiIsspace).reverse.dropWhile gAsciiIsspace).reverse

/-- `GFileMonitorEvent`, as far as `on_file_changed` tells its values apart. -/
inductive FileMonitorEvent where
  | changesDoneHint
  | created
  | other
deriving DecidableEq

/-- The result that `on_file_changed` reads from the content of the status file, if it is one. -/
def classifyStatus (expectedStatus : Option String) (content : String) : Option String :=
  let content := gStrstrip (cString content)
  if expectedStatus = some content then some "done"
  else if content = "fail" then some "fail"
  else if content = "stopped" then some "stopped"
  else none

/-- The observation that `on_file_changed` makes, if it makes one; the content is what
`g_file_get_contents` reads. -/
def observe (expectedStatus : Option String) (eventType : FileMonitorEvent)
    (content : Option String) : Option String :=
  if eventType = .changesDoneHint ∨ eventType = .created then
    content.bind (classifyStatus expectedStatus)
  else none

/-- `on_file_changed`. -/
def onFileChanged (p : Platform) (config : Config) (o : Outcomes) (eventType : FileMonitorEvent)
    (content : Option String) (d : Daemon) : Daemon :=
  match observe d.ctx.expectedStatus eventType content with
  | some result => onSystemdJobFinished p config o result d
  | none => d

/-- Observations are of three kinds. -/
lemma observe_cases {expectedStatus : Option String} {eventType : FileMonitorEvent}
    {content : Option String} {result : String}
    (h : observe expectedStatus eventType content = some result) :
    result = "done" ∨ result = "fail" ∨ result = "stopped" := by
  unfold observe at h
  split at h
  · obtain ⟨text, -, htext⟩ := Option.bind_eq_some_iff.mp h
    unfold classifyStatus at htext
    dsimp only at htext
    split_ifs at htext
    · exact Or.inl (Option.some.inj htext).symm
    · exact Or.inr (Or.inl (Option.some.inj htext).symm)
    · exact Or.inr (Or.inr (Option.some.inj htext).symm)
  · cases h

/-! ## The daemon with its status file -/

/-- Results of jobs come from the status file only. -/
def DaemonEvent.isJobResult : DaemonEvent → Bool
  | jobFinished _ => true
  | _ => false

/-- What the main loop dispatches, with changes of the status file instead of results of jobs. -/
inductive ServiceEvent where
  | dispatched (event : { event : DaemonEvent // event.isJobResult = false })
  | statusChanged (eventType : FileMonitorEvent) (content : Option String)

/-- An event with the outcomes of the operations that it triggers. -/
structure ServiceInput where
  event : ServiceEvent
  outcomes : Outcomes
  isWireless : String → Bool

/-- A change of the status file, if the operations it triggers succeed. -/
def ServiceInput.status (content : String) : ServiceInput where
  event := .statusChanged .changesDoneHint (some content)
  outcomes := .allOk
  isWireless := fun _ => false

/-- The acquisition of the bus name, if the operations it triggers succeed. -/
def ServiceInput.nameAcquired : ServiceInput where
  event := .dispatched ⟨.nameAcquired, rfl⟩
  outcomes := .allOk
  isWireless := fun _ => false

/-- The response of the daemon. -/
def Daemon.serve (p : Platform) (config : Config) (d : Daemon) (i : ServiceInput) : Daemon :=
  match i.event with
  | .dispatched event => d.step p config ⟨event.1, i.outcomes, i.isWireless⟩
  | .statusChanged eventType content => onFileChanged p config i.outcomes eventType content d

/-- The observation that an input leads to. -/
def ServiceInput.observation (expectedStatus : Option String) (i : ServiceInput) : Option String :=
  match i.event with
  | .dispatched _ => none
  | .statusChanged eventType content => observe expectedStatus eventType content

/-- The daemon and the last observation made. -/
structure Service where
  daemon : Daemon
  observation : Option String

/-- The daemon with the readings of its status file, as a transition system. -/
def service (p : Platform) (config : Config) : System Service ServiceInput where
  init := ⟨.initial, none⟩
  step s i :=
    ⟨s.daemon.serve p config i,
      (i.observation s.daemon.ctx.expectedStatus).or s.observation⟩

/-- Observations of an input are of three kinds. -/
lemma observe_cases_of_observation {expectedStatus : Option String} {i : ServiceInput}
    {result : String} (h : i.observation expectedStatus = some result) :
    result = "done" ∨ result = "fail" ∨ result = "stopped" := by
  unfold ServiceInput.observation at h
  split at h
  · cases h
  · exact observe_cases h

/-- An input is one of the daemon, or it is ignored. -/
lemma serve_cases (p : Platform) (config : Config) (d : Daemon) (i : ServiceInput) :
    (∃ event, event.isJobResult = false ∧ i.observation d.ctx.expectedStatus = none ∧
      d.serve p config i = d.step p config ⟨event, i.outcomes, i.isWireless⟩) ∨
    (∃ result, i.observation d.ctx.expectedStatus = some result ∧
      d.serve p config i = d.step p config ⟨.jobFinished result, i.outcomes, i.isWireless⟩) ∨
    (i.observation d.ctx.expectedStatus = none ∧ d.serve p config i = d) := by
  obtain ⟨event, o, isWireless⟩ := i
  cases event with
  | dispatched event => exact Or.inl ⟨event.1, event.2, rfl, rfl⟩
  | statusChanged eventType content =>
    refine Or.inr ?_
    cases hobserve : observe d.ctx.expectedStatus eventType content with
    | none => exact Or.inr ⟨hobserve, by simp [Daemon.serve, onFileChanged, hobserve]⟩
    | some result =>
      exact Or.inl ⟨result, hobserve, by simp [Daemon.serve, onFileChanged, hobserve, Daemon.step]⟩

/-! ## How the machine comes to run -/

/-- The states in which the cache is taken to be running. -/
def FsmState.isUp : FsmState → Bool
  | .settingResolvConf => true
  | .updatingDnsManager => true
  | .running => true
  | _ => false

/-- The cache is taken to be running if it was before or if its start job is reported done, and not
after a reload. -/
lemma isUp_nextState {state next : FsmState} {event : FsmEvent}
    (h : nextState state event = some next) (hnext : next.isUp = true) :
    (state.isUp = true ∨ event = .jobSuccess) ∧ event ≠ .reload := by
  revert hnext
  cases state <;> cases event <;> cases h <;> decide

/-- No action yields the success of a job. -/
lemma Edge.event_ne_jobSuccess {o : Outcomes} {ctx : Context} {event : FsmEvent} {r : ActionResult}
    (hedge : Edge p config o ctx event r) : r.event ≠ .jobSuccess := by
  intro hr
  rcases hedge.rests_or_expected with ⟨hnone, -⟩ | hexpected
  · rw [hnone] at hr
    cases hr
  · rw [hr] at hexpected
    revert hexpected
    cases r.ctx.currentState <;> decide

/-- From rest the machine comes to run only if it was running or if the start job is reported
done. -/
lemma running_of_stateTransition {o : Outcomes} {ctx : Context} {event : FsmEvent}
    {log : List Effect} (hrest : ctx.currentState.isResting = true)
    (h : (stateTransition p config o ctx event log).state.ctx.currentState = .running) :
    ctx.currentState = .running ∨ event = .jobSuccess := by
  have hinvariant : ((stateTransition p config o ctx event log).state.ctx.currentState.isUp = true ∨
      (stateTransition p config o ctx event log).state.event = .jobSuccess) →
      ctx.currentState = .running ∨ event = .jobSuccess := by
    refine stateTransition_invariant (J := fun m => (m.ctx.currentState.isUp = true ∨
      m.event = .jobSuccess) → ctx.currentState = .running ∨ event = .jobSuccess) ?_ ?_
    · rintro ctx' event' log' r hctx' hedge (hr | hr)
      · exact hctx' (isUp_nextState hedge.nextState_eq hr).1
      · exact absurd hr hedge.event_ne_jobSuccess
    · rintro (hup | hevent)
      · refine Or.inl ?_
        revert hup hrest
        cases ctx.currentState <;> simp [FsmState.isUp, FsmState.isResting]
      · exact Or.inr hevent
  exact hinvariant (Or.inl (by rw [h]; rfl))

/-- A reload takes a running machine out of RUNNING. -/
lemma not_running_of_reload {o : Outcomes} {ctx : Context} {log : List Effect}
    (hs : ctx.currentState = .running) :
    (stateTransition p config o ctx .reload log).state.ctx.currentState ≠ .running := by
  have haccepted : (stateTransition p config o ctx .reload log).accepted = true := by
    rw [← Bool.not_eq_false]
    intro hrefused
    have hnone := (stateTransition_unchanged hrefused).1
    simp [transitionAction, hs] at hnone
  have hdown : (stateTransition p config o ctx .reload log).state.event = .reload ∨
      ((stateTransition p config o ctx .reload log).state.ctx.currentState.isUp = false ∧
        (stateTransition p config o ctx .reload log).state.event ≠ .jobSuccess) := by
    refine stateTransition_invariant (J := fun m => m.event = .reload ∨
      (m.ctx.currentState.isUp = false ∧ m.event ≠ .jobSuccess)) ?_ (Or.inl rfl)
    rintro ctx' event' log' r hctx' hedge
    refine Or.inr ⟨?_, hedge.event_ne_jobSuccess⟩
    rcases hctx' with hreload | ⟨hdown, hevent⟩
    · rw [← Bool.not_eq_true]
      exact fun hup => (isUp_nextState hedge.nextState_eq hup).2 hreload
    · rw [← Bool.not_eq_true]
      intro hup
      rcases (isUp_nextState hedge.nextState_eq hup).1 with hbefore | hsuccess
      · exact absurd hbefore (by simp [hdown])
      · exact hevent hsuccess
  intro hrunning
  rcases hdown with hreload | ⟨hdown, -⟩
  · rw [(stateTransition_rests haccepted).1] at hreload
    cases hreload
  · rw [hrunning] at hdown
    cases hdown

/-- The state after an event whose refusal is fatal. -/
lemma currentState_dispatch (o : Outcomes) (event : FsmEvent) (d : Daemon) :
    (dispatch p config o event d).ctx.currentState =
      (stateTransition p config o d.ctx event d.log).state.ctx.currentState := by
  unfold dispatch
  dsimp only
  split <;> rfl

/-- From rest the daemon comes to run only if it was running or if the start job is reported
done. -/
lemma running_of_step {d : Daemon} (hrest : d.ctx.currentState.isResting = true) {i : Input}
    (h : (d.step p config i).ctx.currentState = .running) :
    d.ctx.currentState = .running ∨ i.event = .jobFinished "done" := by
  have hdispatch : ∀ event, event ≠ .jobSuccess →
      (dispatch p config i.outcomes event d).ctx.currentState = .running →
      d.ctx.currentState = .running := by
    intro event hevent hrunning
    rw [currentState_dispatch] at hrunning
    exact (running_of_stateTransition hrest hrunning).resolve_right hevent
  obtain ⟨event, o, isWireless⟩ := i
  cases event with
  | nameLost => exact Or.inl h
  | reloadCall | nameAcquired | sigterm => exact Or.inl (hdispatch _ (by simp) h)
  | updateCall servers mode =>
    refine Or.inl ?_
    simp only [Daemon.step, handleUpdateCall] at h
    split at h
    · exact h
    · rename_i parsedServers mode' hdecode
      simp only [Daemon.accept, currentState_dispatch] at h
      have hreceived : (d.receive parsedServers mode').ctx.currentState.isResting = true := hrest
      exact (running_of_stateTransition hreceived h).resolve_right (by simp)
  | jobFinished result =>
    rcases running_of_stateTransition hrest h with hrunning | hevent
    · exact Or.inl hrunning
    · refine Or.inr ?_
      unfold jobEvent at hevent
      split_ifs at hevent with hstopped hdone
      rw [hdone]

/-! ## Runs -/

/-- The condition: a failure of the cache is not observed while the machine is in RUNNING. -/
def NoCrashWhileRunning (s : Service) (i : ServiceInput) : Prop :=
  s.daemon.ctx.currentState = .running →
    i.observation s.daemon.ctx.expectedStatus ≠ some "fail"

instance (s : Service) (i : ServiceInput) : Decidable (NoCrashWhileRunning s i) :=
  inferInstanceAs (Decidable (_ → _))

/-- The invariant: between events the machine rests, and in RUNNING the last observation is
`done`. -/
structure ObservedDone (s : Service) : Prop where
  rests : s.daemon.ctx.currentState.isResting = true
  running : s.daemon.ctx.currentState = .running → s.observation = some "done"

lemma ObservedDone.step {s : Service} {i : ServiceInput} (h : ObservedDone s)
    (hok : NoCrashWhileRunning s i) : ObservedDone ((service p config).step s i) := by
  rcases serve_cases p config s.daemon i with ⟨event, hcall, hnone, hserve⟩ |
    ⟨result, hsome, hserve⟩ | ⟨hnone, hserve⟩
  · refine ⟨?_, fun hrunning => ?_⟩
    · simp only [service, hserve]
      exact isResting_step p config h.rests _
    · simp only [service, hserve] at hrunning
      simp only [service, hnone, Option.none_or]
      rcases running_of_step h.rests hrunning with hbefore | hdone
      · exact h.running hbefore
      · rw [show event = .jobFinished "done" from hdone] at hcall
        cases hcall
  · refine ⟨?_, fun hrunning => ?_⟩
    · simp only [service, hserve]
      exact isResting_step p config h.rests _
    · simp only [service, hserve] at hrunning
      simp only [service, hsome, Option.some_or]
      rcases running_of_step h.rests hrunning with hbefore | hdone
      · -- in RUNNING only the observation that the job is done leaves the machine there
        rcases observe_cases_of_observation hsome with rfl | rfl | rfl
        · rfl
        · exact absurd hsome (hok hbefore)
        · exact absurd hrunning (not_running_of_reload hbefore)
      · rw [DaemonEvent.jobFinished.inj hdone]
  · refine ⟨?_, fun hrunning => ?_⟩
    · simp only [service, hserve]
      exact h.rests
    · simp only [service, hserve] at hrunning
      simp only [service, hnone, Option.none_or]
      exact h.running hrunning

/-- In every run in which no failure of the cache is observed in RUNNING, whenever the machine rests
in RUNNING the last observation is that the start job is done: neither a failure nor a stop. -/
theorem running_means_done (p : Platform) (config : Config) (is : List ServiceInput)
    (his : (service p config).Meets NoCrashWhileRunning (service p config).init is)
    (hrunning : ((service p config).run is).daemon.ctx.currentState = .running) :
    ((service p config).run is).observation = some "done" := by
  have hrun : ObservedDone ((service p config).run is) :=
    (service p config).invariant_of_meets (fun _ _ hs hok => hs.step hok)
      ⟨rfl, fun h => by cases h⟩ his
  exact hrun.running hrunning

/-- The cache is started and reports that it is ready. -/
theorem running_means_done_once_ready :
    (service .plain .plain).Meets NoCrashWhileRunning (service .plain .plain).init
      [.nameAcquired, .status "pending", .status "ready\n"] ∧
    ((service .plain .plain).run
      [.nameAcquired, .status "pending", .status "ready\n"]).observation = some "done" := by
  have hmeets : (service .plain .plain).Meets NoCrashWhileRunning (service .plain .plain).init
      [.nameAcquired, .status "pending", .status "ready\n"] := by
    decide
  exact ⟨hmeets, running_means_done .plain .plain _ hmeets (by decide)⟩

/-- The cache is started, reports that it is ready, and crashes: the machine stays in RUNNING. -/
theorem crash_ignored_while_running :
    ((service .plain .plain).run
      [.nameAcquired, .status "ready\n", .status "fail\n"]).daemon.ctx.currentState = .running ∧
    ((service .plain .plain).run
      [.nameAcquired, .status "ready\n", .status "fail\n"]).observation = some "fail" := by
  decide

end Dnsconfd
