import Dnsconfd.DbusServer.UpdateCall
import Dnsconfd.Fsm.EventLoop
import Mathlib.Logic.Relation

/-!
# The daemon

The daemon is a transition system whose inputs are the events that its main loop dispatches: calls
of D-Bus methods, the acquisition and the loss of its bus name, SIGTERM, and results of the
service's jobs.  Each input carries the outcomes of whatever the daemon does in response.

A step of the daemon consists of the iterations of `state_transition` and of what the handler does
before and after them.  `Micro` is the relation of these smaller steps, and
`invariant_of_micro` the rule by which properties of all runs are proved: what every small step
preserves holds after every run.  The relation is restricted to iterations that meet a condition,
so that the rule also serves properties that hold only in some runs.
-/

namespace Dnsconfd

open Library

/-- The daemon between two events: its context and the log of its effects. -/
structure Daemon where
  ctx : Context
  log : List Effect

/-- The daemon when its main loop starts. -/
def Daemon.initial : Daemon where
  ctx := .initial
  log := []

/-- What the main loop dispatches; `jobFinished` is a call of `on_systemd_job_finished`. -/
inductive DaemonEvent where
  | updateCall (servers : List VariantDict) (mode : UInt32)
  | reloadCall
  | nameAcquired
  | nameLost
  | sigterm
  | jobFinished (result : String)

/-- An event with the outcomes of the operations that it triggers; `isWireless` is what
`is_wireless` finds for the interfaces of an Update call. -/
structure Input where
  event : DaemonEvent
  outcomes : Outcomes
  isWireless : String → Bool

/-- An event all of whose operations succeed, on a host without wireless interfaces. -/
def Input.ok (event : DaemonEvent) : Input where
  event := event
  outcomes := .allOk
  isWireless := fun _ => false

/-! ## Handlers -/

/-- Handling of an event whose refusal is fatal. -/
def dispatch (p : Platform) (config : Config) (o : Outcomes) (event : FsmEvent) (d : Daemon) :
    Daemon :=
  let r := stateTransition p config o d.ctx event d.log
  if r.accepted then ⟨r.state.ctx, r.state.log⟩
  else ⟨{ r.state.ctx with exitCode := .fsmFailure }, r.state.log ++ [.mainLoopQuit]⟩

/-- The decoding half of `handle_update_call`. -/
def decodeUpdateCall (p : Platform) (isWireless : String → Bool) (servers : List VariantDict)
    (mode : UInt32) : Except ParseError (List ServerUri × Mode) :=
  match Mode.ofUInt32 mode with
  | none => .error .invalidMode
  | some mode =>
    match parseServers p isWireless servers [] with
    | .error error => .error error
    | .ok parsedServers => .ok (parsedServers, mode)

/-- The context that `handle_update_call` prepares for an Update. -/
def Daemon.receive (d : Daemon) (parsedServers : List ServerUri) (mode : Mode) : Daemon where
  ctx := { d.ctx with newDynamicServers := parsedServers, resolutionMode := mode }
  log := d.log ++ [.updateParsed parsedServers mode]

/-- The reply to an Update call with the serial as it is now. -/
def Daemon.accept (d : Daemon) : Daemon where
  ctx := d.ctx
  log := d.log ++ [.updateReplied d.ctx.requestedConfigurationSerial "Update accepted"]

/-- `handle_update_call`. -/
def handleUpdateCall (p : Platform) (config : Config) (o : Outcomes) (isWireless : String → Bool)
    (servers : List VariantDict) (mode : UInt32) (d : Daemon) : Daemon :=
  match decodeUpdateCall p isWireless servers mode with
  | .error error => ⟨d.ctx, d.log ++ [.updateReplied 0 error.text]⟩
  | .ok (parsedServers, mode) =>
    (dispatch p config o .update (d.receive parsedServers mode)).accept

/-- `handle_reload_call`. -/
def handleReloadCall (p : Platform) (config : Config) (o : Outcomes) (d : Daemon) : Daemon :=
  let d := dispatch p config o .reload d
  ⟨d.ctx, d.log ++ [.reloadReplied "Reload accepted"]⟩

/-- `on_name_acquired`. -/
def onNameAcquired (p : Platform) (config : Config) (o : Outcomes) (d : Daemon) : Daemon :=
  dispatch p config o .kickoff d

/-- `on_name_lost`. -/
def onNameLost (d : Daemon) : Daemon where
  ctx := { d.ctx with exitCode := .dbusFailure }
  log := d.log ++ [.mainLoopQuit]

/-- `on_sigterm`. -/
def onSigterm (p : Platform) (config : Config) (o : Outcomes) (d : Daemon) : Daemon :=
  dispatch p config o .stop d

/-- The event for the result of a job. -/
def jobEvent (result : String) : FsmEvent :=
  if result = "stopped" then .reload
  else if result = "done" then .jobSuccess
  else .jobFailure

/-- `on_systemd_job_finished`; here it does not matter whether the event is refused. -/
def onSystemdJobFinished (p : Platform) (config : Config) (o : Outcomes) (result : String)
    (d : Daemon) : Daemon :=
  let r := stateTransition p config o d.ctx (jobEvent result) d.log
  ⟨r.state.ctx, r.state.log⟩

/-- The response of the daemon to one input. -/
def Daemon.step (p : Platform) (config : Config) (d : Daemon) (i : Input) : Daemon :=
  match i.event with
  | .updateCall servers mode =>
    handleUpdateCall p config i.outcomes i.isWireless servers mode d
  | .reloadCall => handleReloadCall p config i.outcomes d
  | .nameAcquired => onNameAcquired p config i.outcomes d
  | .nameLost => onNameLost d
  | .sigterm => onSigterm p config i.outcomes d
  | .jobFinished result => onSystemdJobFinished p config i.outcomes result d

/-- The daemon as a transition system. -/
def daemon (p : Platform) (config : Config) : System Daemon Input where
  init := .initial
  step := Daemon.step p config

/-! ## Small steps -/

/-- The machine with which an input enters `state_transition`, if it does. -/
def Daemon.arrival (p : Platform) (d : Daemon) (i : Input) : Option Machine :=
  match i.event with
  | .updateCall servers mode =>
    match decodeUpdateCall p i.isWireless servers mode with
    | .error _ => none
    | .ok (parsedServers, mode) =>
      some ⟨(d.receive parsedServers mode).ctx, .update, (d.receive parsedServers mode).log⟩
  | .reloadCall => some ⟨d.ctx, .reload, d.log⟩
  | .nameAcquired => some ⟨d.ctx, .kickoff, d.log⟩
  | .nameLost => none
  | .sigterm => some ⟨d.ctx, .stop, d.log⟩
  | .jobFinished result => some ⟨d.ctx, jobEvent result, d.log⟩

/-- Every iteration of `state_transition` that an input causes meets a condition on the context,
the event at hand and the log before it. -/
def IterationsMeet (p : Platform) (config : Config) (ok : Machine → Prop) (d : Daemon)
    (i : Input) : Prop :=
  ∀ m ∈ d.arrival p i,
    LoopMeets (transition p config i.outcomes) Machine.hasEvent ok maxIterations m

instance (p : Platform) (config : Config) (ok : Machine → Prop) [DecidablePred ok] (d : Daemon)
    (i : Input) : Decidable (IterationsMeet p config ok d i) :=
  match h : d.arrival p i with
  | none => isTrue fun m hm => by rw [h] at hm; cases hm
  | some m =>
    decidable_of_iff
      (LoopMeets (transition p config i.outcomes) Machine.hasEvent ok maxIterations m)
      ⟨fun hm n hn => by rw [h] at hn; cases hn; exact hm, fun hm => hm m h⟩

/-- The daemon between two small steps; `answering` while a decoded Update call has not been
answered yet. -/
structure Moment extends Machine where
  answering : Bool

/-- The daemon between two events, as a moment. -/
def Daemon.moment (d : Daemon) : Moment :=
  ⟨⟨d.ctx, .none, d.log⟩, false⟩

/-- The small steps of the daemon, of which the iterations meet the condition `ok`. -/
inductive Micro (p : Platform) (config : Config) (ok : Machine → Prop) : Moment → Moment → Prop where
  | receive {ctx : Context} {log : List Effect} {event : FsmEvent}
      (he : event.isExternal = true) (hu : event ≠ .update) :
      Micro p config ok ⟨⟨ctx, .none, log⟩, false⟩ ⟨⟨ctx, event, log⟩, false⟩
  | parsed {ctx : Context} {log : List Effect} (servers : List ServerUri) (mode : Mode)
      (hok : ok ⟨{ ctx with newDynamicServers := servers, resolutionMode := mode }, .update,
        log ++ [.updateParsed servers mode]⟩) :
      Micro p config ok ⟨⟨ctx, .none, log⟩, false⟩
        ⟨⟨{ ctx with newDynamicServers := servers, resolutionMode := mode }, .update,
          log ++ [.updateParsed servers mode]⟩, true⟩
  | edge {o : Outcomes} {ctx : Context} {event : FsmEvent} {log : List Effect}
      {answering : Bool} {r : ActionResult} (hok : ok ⟨ctx, event, log⟩)
      (h : Edge p config o ctx event r) :
      Micro p config ok ⟨⟨ctx, event, log⟩, answering⟩
        ⟨⟨r.ctx, r.event, log ++ .transitionMade ctx.currentState event :: r.effects⟩,
          answering⟩
  | refused {o : Outcomes} {ctx : Context} {event : FsmEvent} {log : List Effect}
      {answering : Bool} (h : transitionAction p config o ctx event = none) :
      Micro p config ok ⟨⟨ctx, event, log⟩, answering⟩
        ⟨⟨{ ctx with exitCode := .fsmFailure }, .none, log ++ [.mainLoopQuit]⟩, answering⟩
  | skipped {o : Outcomes} {ctx : Context} {event : FsmEvent} {log : List Effect}
      (h : transitionAction p config o ctx event = none) :
      Micro p config ok ⟨⟨ctx, event, log⟩, false⟩ ⟨⟨ctx, .none, log⟩, false⟩
  | replied {ctx : Context} {log : List Effect} :
      Micro p config ok ⟨⟨ctx, .none, log⟩, true⟩
        ⟨⟨ctx, .none,
          log ++ [.updateReplied ctx.requestedConfigurationSerial "Update accepted"]⟩, false⟩
  | rejected {ctx : Context} {log : List Effect} (error : ParseError) :
      Micro p config ok ⟨⟨ctx, .none, log⟩, false⟩
        ⟨⟨ctx, .none, log ++ [.updateReplied 0 error.text]⟩, false⟩
  | reloadReplied {ctx : Context} {log : List Effect} :
      Micro p config ok ⟨⟨ctx, .none, log⟩, false⟩
        ⟨⟨ctx, .none, log ++ [.reloadReplied "Reload accepted"]⟩, false⟩
  | nameLost {ctx : Context} {log : List Effect} :
      Micro p config ok ⟨⟨ctx, .none, log⟩, false⟩
        ⟨⟨{ ctx with exitCode := .dbusFailure }, .none, log ++ [.mainLoopQuit]⟩, false⟩

open Relation in
/-- The iterations of `state_transition` are small steps. -/
lemma micro_stateTransition {p : Platform} {config : Config} {ok : Machine → Prop} {o : Outcomes}
    {ctx : Context} {event : FsmEvent} {log : List Effect} (answering : Bool)
    (hok : LoopMeets (transition p config o) Machine.hasEvent ok maxIterations
      ⟨ctx, event, log⟩) :
    ReflTransGen (Micro p config ok) ⟨⟨ctx, event, log⟩, answering⟩
      ⟨(stateTransition p config o ctx event log).state, answering⟩ := by
  refine doWhile_related
    (R := fun m m' => ReflTransGen (Micro p config ok) ⟨m, answering⟩ ⟨m', answering⟩)
    (fun _ => .refl) (fun _ _ _ => .trans) ?_ maxIterations ⟨ctx, event, log⟩ _ hok
    (stateTransitionLoop_eq p config o ctx event log)
  intro m m' hm hbody
  obtain ⟨r, hedge, rfl⟩ := edge_of_transition hbody
  exact .single (.edge hm hedge)

/-- An accepted event is handled by the state machine alone. -/
lemma dispatch_of_accepted {p : Platform} {config : Config} {o : Outcomes} {event : FsmEvent}
    {d : Daemon} (h : (stateTransition p config o d.ctx event d.log).accepted = true) :
    dispatch p config o event d =
      ⟨(stateTransition p config o d.ctx event d.log).state.ctx,
        (stateTransition p config o d.ctx event d.log).state.log⟩ := by
  simp [dispatch, h]

/-- A refused event only ends the main loop. -/
lemma dispatch_of_refused {p : Platform} {config : Config} {o : Outcomes} {event : FsmEvent}
    {d : Daemon} (h : (stateTransition p config o d.ctx event d.log).accepted = false) :
    dispatch p config o event d =
      ⟨{ d.ctx with exitCode := .fsmFailure }, d.log ++ [.mainLoopQuit]⟩ := by
  simp [dispatch, h, (stateTransition_unchanged h).2]

open Relation in
/-- Handling an event whose refusal is fatal takes small steps. -/
lemma micro_dispatch {p : Platform} {config : Config} {ok : Machine → Prop} {o : Outcomes}
    {d : Daemon} (event : FsmEvent) (answering : Bool)
    (hok : LoopMeets (transition p config o) Machine.hasEvent ok maxIterations
      ⟨d.ctx, event, d.log⟩) :
    ReflTransGen (Micro p config ok) ⟨⟨d.ctx, event, d.log⟩, answering⟩
      ⟨⟨(dispatch p config o event d).ctx, .none, (dispatch p config o event d).log⟩,
        answering⟩ := by
  cases hacc : (stateTransition p config o d.ctx event d.log).accepted with
  | true =>
    rw [dispatch_of_accepted hacc, ← (stateTransition_rests hacc).1]
    exact micro_stateTransition answering hok
  | false =>
    rw [dispatch_of_refused hacc]
    exact .single (.refused (stateTransition_unchanged hacc).1)

/-- The events of finished jobs come from outside and are not Updates. -/
lemma jobEvent_isExternal (result : String) :
    (jobEvent result).isExternal = true ∧ jobEvent result ≠ .update := by
  unfold jobEvent
  split
  · exact ⟨rfl, by simp⟩
  · split
    · exact ⟨rfl, by simp⟩
    · exact ⟨rfl, by simp⟩

open Relation in
/-- Handling the result of a job takes small steps. -/
lemma micro_onSystemdJobFinished {p : Platform} {config : Config} {ok : Machine → Prop}
    {o : Outcomes} {d : Daemon} (result : String)
    (hok : LoopMeets (transition p config o) Machine.hasEvent ok maxIterations
      ⟨d.ctx, jobEvent result, d.log⟩) :
    ReflTransGen (Micro p config ok) ⟨⟨d.ctx, jobEvent result, d.log⟩, false⟩
      (onSystemdJobFinished p config o result d).moment := by
  change ReflTransGen (Micro p config ok) _
    (Moment.mk ⟨(stateTransition p config o d.ctx (jobEvent result) d.log).state.ctx, .none,
      (stateTransition p config o d.ctx (jobEvent result) d.log).state.log⟩ false)
  cases hacc : (stateTransition p config o d.ctx (jobEvent result) d.log).accepted with
  | true =>
    rw [← (stateTransition_rests hacc).1]
    exact micro_stateTransition false hok
  | false =>
    obtain ⟨hnone, hstate⟩ := stateTransition_unchanged hacc
    rw [hstate]
    exact .single (.skipped hnone)

open Relation in
/-- A step of the daemon consists of small steps. -/
theorem micro_step {p : Platform} {config : Config} {ok : Machine → Prop} {d : Daemon} {i : Input}
    (hok : IterationsMeet p config ok d i) :
    ReflTransGen (Micro p config ok) d.moment (d.step p config i).moment := by
  obtain ⟨event, o, isWireless⟩ := i
  cases event with
  | updateCall servers mode =>
    simp only [Daemon.step, handleUpdateCall]
    cases hdec : decodeUpdateCall p isWireless servers mode with
    | error error => exact .single (.rejected error)
    | ok update =>
      obtain ⟨parsedServers, mode⟩ := update
      have hmeets := hok ⟨(d.receive parsedServers mode).ctx, .update,
        (d.receive parsedServers mode).log⟩ (by simp [Daemon.arrival, hdec])
      have hloop : ReflTransGen (Micro p config ok)
          ⟨⟨(d.receive parsedServers mode).ctx, .update, (d.receive parsedServers mode).log⟩, true⟩
          ⟨⟨(dispatch p config o .update (d.receive parsedServers mode)).ctx, .none,
            (dispatch p config o .update (d.receive parsedServers mode)).log⟩, true⟩ :=
        micro_dispatch .update true hmeets
      have hparsed : ReflTransGen (Micro p config ok) d.moment _ :=
        .single (.parsed parsedServers mode hmeets.1)
      exact (hparsed.trans hloop).tail .replied
  | reloadCall =>
    have hloop := micro_dispatch (d := d) .reload false (hok _ rfl)
    exact ((ReflTransGen.single (.receive rfl (by simp))).trans hloop).tail .reloadReplied
  | nameAcquired =>
    have hloop := micro_dispatch (d := d) .kickoff false (hok _ rfl)
    exact (ReflTransGen.single (.receive rfl (by simp))).trans hloop
  | nameLost => exact .single .nameLost
  | sigterm =>
    have hloop := micro_dispatch (d := d) .stop false (hok _ rfl)
    exact (ReflTransGen.single (.receive rfl (by simp))).trans hloop
  | jobFinished result =>
    obtain ⟨hext, hu⟩ := jobEvent_isExternal result
    exact (ReflTransGen.single (.receive hext hu)).trans
      (micro_onSystemdJobFinished result (hok _ rfl))

open Relation in
/-- A step of the daemon at a Reload consists of small steps after its arrival. -/
lemma micro_reload {p : Platform} {config : Config} {ok : Machine → Prop} {d : Daemon} {i : Input}
    (hreload : i.event = .reloadCall ∨ i.event = .jobFinished "stopped")
    (hok : IterationsMeet p config ok d i) :
    ReflTransGen (Micro p config ok) ⟨⟨d.ctx, .reload, d.log⟩, false⟩
      (d.step p config i).moment := by
  obtain ⟨event, o, isWireless⟩ := i
  rcases hreload with rfl | rfl
  · exact (micro_dispatch (d := d) .reload false (hok _ rfl)).tail .reloadReplied
  · exact micro_onSystemdJobFinished "stopped" (hok _ rfl)

/-- Every run in which the iterations meet `ok`. -/
abbrev RunMeets (p : Platform) (config : Config) (ok : Machine → Prop) (is : List Input) : Prop :=
  (daemon p config).Meets (IterationsMeet p config ok) .initial is

/-- A run that meets a condition meets every weaker one. -/
lemma RunMeets.mono {p : Platform} {config : Config} {ok ok' : Machine → Prop}
    (h : ∀ m, ok m → ok' m) {is : List Input} (his : RunMeets p config ok is) :
    RunMeets p config ok' is :=
  System.Meets.mono _ (fun _ _ hok m hm => (hok m hm).mono h) his

/-- What every small step preserves is preserved by any number of them. -/
lemma invariant_of_steps {p : Platform} {config : Config} {ok : Machine → Prop}
    {J : Moment → Prop} (hmicro : ∀ a b, J a → Micro p config ok a b → J b) {a b : Moment}
    (ha : J a) (hsteps : Relation.ReflTransGen (Micro p config ok) a b) : J b := by
  induction hsteps with
  | refl => exact ha
  | tail _ hlast ih => exact hmicro _ _ ih hlast

/-- **Invariant rule.**  What every small step preserves is preserved by a run. -/
theorem invariant_of_micro {p : Platform} {config : Config} {ok : Machine → Prop}
    {J : Moment → Prop} (hmicro : ∀ a b, J a → Micro p config ok a b → J b) {d : Daemon}
    (hd : J d.moment) {is : List Input}
    (his : (daemon p config).Meets (IterationsMeet p config ok) d is) :
    J ((daemon p config).runFrom d is).moment := by
  have hstep : ∀ (d : Daemon) (i : Input), J d.moment → IterationsMeet p config ok d i →
      J (d.step p config i).moment :=
    fun d i hJ hok => invariant_of_steps hmicro hJ (micro_step hok)
  exact (daemon p config).invariant_of_meets hstep hd his

/-- What every small step preserves is preserved by one input. -/
lemma invariant_of_step {p : Platform} {config : Config} {J : Moment → Prop}
    (hmicro : ∀ a b, J a → Micro p config (fun _ => True) a b → J b) {d : Daemon}
    (hd : J d.moment) (i : Input) : J (d.step p config i).moment := by
  have hmeets : IterationsMeet p config (fun _ => True) d i :=
    fun m _ => loopMeets_of_forall (fun _ => trivial) _ m
  exact invariant_of_steps hmicro hd (micro_step hmeets)

/-- **Invariant rule** for unrestricted runs. -/
theorem invariant_of_micro_true {p : Platform} {config : Config} {J : Moment → Prop}
    (hmicro : ∀ a b, J a → Micro p config (fun _ => True) a b → J b) {d : Daemon}
    (hd : J d.moment) (is : List Input) : J ((daemon p config).runFrom d is).moment :=
  invariant_of_micro hmicro hd
    (System.meets_of_forall_mem _ (fun _ _ _ _ _ => loopMeets_of_forall (fun _ => trivial) _ _) _)

/-- A condition that every edge preserves is met by all iterations that an input causes if it is met
by the first of them. -/
lemma iterationsMeet_of_edge {p : Platform} {config : Config} {J : Machine → Prop}
    (hedge : ∀ o ctx event log r, J ⟨ctx, event, log⟩ → Edge p config o ctx event r →
      J ⟨r.ctx, r.event, log ++ .transitionMade ctx.currentState event :: r.effects⟩)
    {d : Daemon}
    (hreceive : ∀ event : FsmEvent, event.isExternal = true → event ≠ .update →
      J ⟨d.ctx, event, d.log⟩)
    (hupdate : ∀ isWireless servers mode parsedServers mode',
      decodeUpdateCall p isWireless servers mode = .ok (parsedServers, mode') →
      J ⟨(d.receive parsedServers mode').ctx, .update, (d.receive parsedServers mode').log⟩)
    (i : Input) : IterationsMeet p config J d i := by
  intro m hm
  refine loopMeets_of_preserved (fun m m' hm hbody => ?_) maxIterations m ?_
  · obtain ⟨r, hr, rfl⟩ := edge_of_transition hbody
    exact hedge _ _ _ _ r hm hr
  · obtain ⟨event, o, isWireless⟩ := i
    cases event with
    | nameLost => cases hm
    | reloadCall | nameAcquired | sigterm =>
      obtain rfl := Option.some.inj hm
      exact hreceive _ rfl (by simp)
    | jobFinished result =>
      obtain rfl := Option.some.inj hm
      exact hreceive _ (jobEvent_isExternal result).1 (jobEvent_isExternal result).2
    | updateCall servers mode =>
      simp only [Daemon.arrival] at hm
      cases hdecode : decodeUpdateCall p isWireless servers mode with
      | error error => simp [hdecode] at hm
      | ok update =>
        rw [hdecode] at hm
        obtain rfl := Option.some.inj hm
        exact hupdate isWireless servers mode update.1 update.2 hdecode

/-- **Invariant rule** for the iterations themselves: a condition that small steps preserve and that
is met by the iterations of every input is met by all iterations of a run and at its end. -/
theorem runMeets_and_invariant {p : Platform} {config : Config} {J : Machine → Prop}
    (harrive : ∀ (d : Daemon) (i : Input), J d.moment.toMachine → IterationsMeet p config J d i)
    (hmicro : ∀ a b : Moment, J a.toMachine → Micro p config J a b → J b.toMachine)
    (hinitial : J Daemon.initial.moment.toMachine) (is : List Input) :
    RunMeets p config J is ∧ J ((daemon p config).run is).moment.toMachine := by
  refine (daemon p config).meets_and_invariant (J := fun d => J d.moment.toMachine) harrive
    (fun d i hd hok => ?_) hinitial is
  exact invariant_of_steps (J := fun a => J a.toMachine) hmicro hd (micro_step hok)

/-- An input that is not an Update call leads to no iteration that handles an Update. -/
lemma iterationsMeet_of_not_updateCall {p : Platform} {config : Config} {d : Daemon} {i : Input}
    (hi : ∀ servers mode, i.event ≠ .updateCall servers mode) :
    IterationsMeet p config (fun m => m.event ≠ .update) d i := by
  intro m hm
  refine loopMeets_of_preserved (fun m m' _ hbody => ?_) maxIterations m ?_
  · obtain ⟨r, hedge, rfl⟩ := edge_of_transition hbody
    exact hedge.event_ne_update
  · obtain ⟨event, o, isWireless⟩ := i
    cases event with
    | updateCall servers mode => exact absurd rfl (hi servers mode)
    | nameLost => cases hm
    | reloadCall | nameAcquired | sigterm =>
      obtain rfl := Option.some.inj hm
      simp
    | jobFinished result =>
      obtain rfl := Option.some.inj hm
      exact (jobEvent_isExternal result).2

/-! ## The log -/

/-- The log only grows. -/
lemma Micro.log_grows {p : Platform} {config : Config} {ok : Machine → Prop} {a b : Moment}
    (h : Micro p config ok a b) : a.log <+: b.log := by
  cases h with
  | receive | skipped => exact List.prefix_rfl
  | parsed | edge | refused | replied | rejected | reloadReplied | nameLost =>
    exact List.prefix_append _ _

lemma log_grows_step (p : Platform) (config : Config) (d : Daemon) (i : Input) :
    d.log <+: (d.step p config i).log := by
  exact invariant_of_step (J := fun a => d.log <+: a.log)
    (fun _ _ ha hstep => ha.trans hstep.log_grows) List.prefix_rfl i

/-- What `state_transition` does is in the log after the step. -/
lemma log_grows_of_arrival {p : Platform} {config : Config} {d : Daemon} {i : Input} {m : Machine}
    (hm : m ∈ d.arrival p i) :
    (stateTransition p config i.outcomes m.ctx m.event m.log).state.log <+:
      (d.step p config i).log := by
  have hdispatch : ∀ (event : FsmEvent) (d : Daemon),
      (stateTransition p config i.outcomes d.ctx event d.log).state.log <+:
        (dispatch p config i.outcomes event d).log := by
    intro event d
    unfold dispatch
    dsimp only
    split
    · exact List.prefix_rfl
    · exact List.prefix_append _ _
  obtain ⟨event, o, isWireless⟩ := i
  cases event with
  | nameLost => cases hm
  | nameAcquired | sigterm =>
    obtain rfl := Option.some.inj hm
    exact hdispatch _ d
  | reloadCall =>
    obtain rfl := Option.some.inj hm
    exact (hdispatch _ d).trans (List.prefix_append _ _)
  | jobFinished result =>
    obtain rfl := Option.some.inj hm
    exact List.prefix_rfl
  | updateCall servers mode =>
    simp only [Daemon.arrival] at hm
    cases hdecode : decodeUpdateCall p isWireless servers mode with
    | error error => simp [hdecode] at hm
    | ok update =>
      rw [hdecode] at hm
      obtain rfl := Option.some.inj hm
      simp only [Daemon.step, handleUpdateCall, hdecode, Daemon.accept]
      exact (hdispatch _ (d.receive update.1 update.2)).trans (List.prefix_append _ _)

/-- If every iteration that fails a condition does a damage that stays in the log, a run whose log
is without the damage meets the condition. -/
theorem runMeets_of_log {p : Platform} {config : Config} {ok : Machine → Prop}
    {B : List Effect → Prop} (hgrows : ∀ log log', log <+: log' → B log → B log')
    (hbad : ∀ o m, ¬ ok m → ∃ m', transition p config o m = some m' ∧ B m'.log)
    {is : List Input} (h : ¬ B ((daemon p config).run is).log) : RunMeets p config ok is := by
  refine System.meets_of_final (daemon p config) (B := fun d => B d.log) (fun d i hnot => ?_)
    (fun d i hd => hgrows _ _ (log_grows_step p config d i) hd) h
  by_contra hgood
  refine hnot fun m hm => ?_
  refine loopMeets_of_final (B := fun m => B m.log) (hbad i.outcomes) (fun m m' hbad hbody => ?_)
    (stateTransitionLoop_eq p config i.outcomes m.ctx m.event m.log) fun hfinal => ?_
  · obtain ⟨r, -, rfl⟩ := edge_of_transition hbody
    exact hgrows _ _ (List.prefix_append _ _) hbad
  · exact hgood (hgrows _ _ (log_grows_of_arrival hm) hfinal)

/-! ## Resting states -/

/-- The machine is in a resting state or has an event that the next iteration handles. -/
def RestsOrProceeds (a : Moment) : Prop :=
  a.ctx.currentState.isResting = true ∨ isExpected a.ctx.currentState a.event = true

/-- A small step leads to a resting state or to one that the next small step leaves. -/
lemma restsOrProceeds_micro {p : Platform} {config : Config} {ok : Machine → Prop} {a b : Moment}
    (ha : RestsOrProceeds a) (h : Micro p config ok a b) : RestsOrProceeds b := by
  have hnone : ∀ s : FsmState, isExpected s .none = false := by
    intro s
    cases s <;> rfl
  cases h with
  | edge hok hedge =>
    rcases hedge.rests_or_expected with ⟨-, hrest⟩ | hexp
    · exact Or.inl hrest
    · exact Or.inr hexp
  | refused hrefused =>
    rcases ha with hrest | hexp
    · exact Or.inl hrest
    · exact absurd hrefused (transitionAction_ne_none_of_isExpected hexp)
  | skipped hrefused =>
    rcases ha with hrest | hexp
    · exact Or.inl hrest
    · exact absurd hrefused (transitionAction_ne_none_of_isExpected hexp)
  | receive he hu => exact Or.inl (ha.resolve_right (by simp [hnone]))
  | parsed servers mode => exact Or.inl (ha.resolve_right (by simp [hnone]))
  | replied => exact ha
  | rejected error => exact ha
  | reloadReplied => exact ha
  | nameLost => exact ha

/-- An event takes the daemon from one of the five resting states to another. -/
lemma isResting_step (p : Platform) (config : Config) {d : Daemon}
    (hd : d.ctx.currentState.isResting = true) (i : Input) :
    (d.step p config i).ctx.currentState.isResting = true := by
  have hstep : RestsOrProceeds (d.step p config i).moment :=
    invariant_of_step (fun _ _ ha h => restsOrProceeds_micro ha h) (Or.inl hd) i
  refine hstep.resolve_right ?_
  rw [Daemon.moment]
  cases (d.step p config i).ctx.currentState <;> simp [isExpected]

/-- Between two events the daemon is in one of the five resting states. -/
lemma isResting_run (p : Platform) (config : Config) (is : List Input) :
    ((daemon p config).run is).ctx.currentState.isResting = true :=
  (daemon p config).invariant (J := fun d => d.ctx.currentState.isResting = true)
    (fun _ i hd => isResting_step p config hd i) rfl is

/-- The event loop is well behaved: with every outcome of the operations `state_transition` ends;
an accepted event leaves the machine in one of the five resting states with no event left over; a
refused one is refused by the first iteration, with nothing changed; and so every run of the daemon
is at rest between events. -/
theorem stateTransition_well_behaved (p : Platform) (config : Config) :
    (∀ (o : Outcomes) (ctx : Context) (event : FsmEvent) (log : List Effect),
      (∀ n, maxIterations ≤ n → stateTransitionLoop p config o n ⟨ctx, event, log⟩ =
        some (stateTransition p config o ctx event log)) ∧
      ((stateTransition p config o ctx event log).accepted = true →
        (stateTransition p config o ctx event log).state.event = .none ∧
          (stateTransition p config o ctx event log).state.ctx.currentState.isResting = true) ∧
      ((stateTransition p config o ctx event log).accepted = false →
        transition p config o ⟨ctx, event, log⟩ = none ∧
          (stateTransition p config o ctx event log).state = ⟨ctx, event, log⟩)) ∧
    ∀ is : List Input, ((daemon p config).run is).ctx.currentState.isResting = true := by
  refine ⟨fun o ctx event log => ⟨fun n hn => ?_, stateTransition_rests, fun hacc => ?_⟩,
    isResting_run p config⟩
  · exact doWhile_mono hn (stateTransitionLoop_eq p config o ctx event log)
  · obtain ⟨hnone, hstate⟩ := stateTransition_unchanged hacc
    exact ⟨by rw [transition, hnone]; rfl, hstate⟩

end Dnsconfd
