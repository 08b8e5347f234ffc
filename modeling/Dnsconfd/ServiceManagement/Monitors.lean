import Dnsconfd.DbusServer.Daemon
import Dnsconfd.Fsm.Effects

/-!
# File monitors

Every kickoff subscribes to changes of the status file: `service_management_subscribe_job_removed`
creates a file monitor, connects `on_file_changed` to it and keeps it in the only pointer there is,
without disconnecting the one it may hold.  A monitor that is no longer pointed to stays connected,
so every further change of the status file is handled once more, and
`service_management_context_destroy` does not release it.

How many handlers are connected, and whether the pointer is set, is a question to the log
(`monitors`).  A lost handler is never released, so a run keeps its single subscription exactly if no
kickoff happens in it once there is a monitor (`one_subscription_iff`).
-/

namespace Dnsconfd

open Library

variable {p : Platform} {config : Config}

/-! ## Handlers and the pointer -/

/-- The connected handlers, and whether `ctx->monitor` points to a monitor. -/
structure Monitors where
  live : ℕ
  kept : Bool
deriving DecidableEq

/-- The effect of an iteration's start and of a new monitor: a kickoff overwrites the pointer, with
`NULL` if no monitor can be created. -/
def Monitors.note (m : Monitors) : Effect → Monitors
  | .transitionMade state event => if isKickoff state event then ⟨m.live, false⟩ else m
  | .monitorCreated => ⟨m.live + 1, true⟩
  | _ => m

/-- The handlers after the given effects. -/
def monitors (log : List Effect) : Monitors :=
  log.foldl Monitors.note ⟨0, false⟩

/-- `service_management_context_destroy`: the handler of the monitor that is pointed to is
disconnected. -/
def Monitors.destroy (m : Monitors) : Monitors :=
  if m.kept then ⟨m.live - 1, false⟩ else m

/-- Some handler would not be released. -/
def Monitors.Leaks (m : Monitors) : Prop :=
  m.destroy.live ≠ 0

instance (m : Monitors) : Decidable m.Leaks :=
  inferInstanceAs (Decidable (_ ≠ _))

/-- A handler that would not be released never will be. -/
lemma Monitors.Leaks.note {m : Monitors} (h : m.Leaks) (e : Effect) : (m.note e).Leaks := by
  have hlive : m.live ≠ 0 := by
    intro hzero
    apply h
    unfold destroy
    split
    · rw [hzero]
    · exact hzero
  cases e with
  | transitionMade state event =>
    simp only [Monitors.note]
    split
    · exact hlive
    · exact h
  | monitorCreated => exact hlive
  | _ => exact h

/-- The handlers after further effects. -/
lemma monitors_append (log l : List Effect) :
    monitors (log ++ l) = l.foldl Monitors.note (monitors log) := by
  rw [monitors, List.foldl_append]
  rfl

lemma leaks_of_longer {log log' : List Effect} (hlog : log <+: log')
    (h : (monitors log).Leaks) : (monitors log').Leaks := by
  obtain ⟨l, rfl⟩ := hlog
  rw [monitors_append]
  induction l generalizing log with
  | nil => exact h
  | cons e l ih =>
    have hnote : (monitors (log ++ [e])).Leaks := by
      rw [monitors_append]
      exact h.note e
    have hrest := ih hnote
    rw [monitors_append] at hrest
    exact hrest

/-! ## What an iteration does to them -/

/-- Effects that do not touch monitors. -/
def Effect.sparesMonitors : Effect → Bool
  | .transitionMade _ _ => false
  | .monitorCreated => false
  | _ => true

lemma foldl_note_eq {l : List Effect} (h : ∀ e ∈ l, e.sparesMonitors = true) (m : Monitors) :
    l.foldl Monitors.note m = m := by
  refine foldl_eq_self (fun e he m => ?_) m
  have hspares := h e he
  cases e <;> first | rfl | cases hspares

lemma monitors_append_of_spares {log l : List Effect} (h : ∀ e ∈ l, e.sparesMonitors = true) :
    monitors (log ++ l) = monitors log := by
  rw [monitors_append, foldl_note_eq h]

/-- An iteration that is not a kickoff leaves the handlers alone. -/
lemma Edge.monitors_eq {o : Outcomes} {ctx : Context} {event : FsmEvent} {r : ActionResult}
    (hedge : Edge p config o ctx event r) (hk : isKickoff ctx.currentState event = false)
    (log : List Effect) :
    monitors (log ++ .transitionMade ctx.currentState event :: r.effects) =
      monitors log := by
  have hspares : ∀ e ∈ r.effects, e.sparesMonitors = true := by
    intro e he
    have hof := hedge.isOf he
    cases e with
    | monitorCreated => exact absurd hof (by simp [Effect.isOf, hk])
    | transitionMade state event' => cases hof
    | _ => rfl
  rw [monitors_append, List.foldl_cons, foldl_note_eq hspares]
  simp [Monitors.note, hk]

/-- A kickoff overwrites the pointer and connects one handler more, if a monitor can be created. -/
lemma Edge.monitors_kickoff {o : Outcomes} {ctx : Context} {event : FsmEvent} {r : ActionResult}
    (hedge : Edge p config o ctx event r) (hk : isKickoff ctx.currentState event = true)
    (log : List Effect) :
    (monitors (log ++ .transitionMade ctx.currentState event :: r.effects) =
        ⟨(monitors log).live, false⟩ ∧ ∀ lines, .confWritten lines ∉ r.effects) ∨
      monitors (log ++ .transitionMade ctx.currentState event :: r.effects) =
        ⟨(monitors log).live + 1, true⟩ := by
  rw [monitors_append, List.foldl_cons]
  simp only [Monitors.note, hk, if_true]
  have hfirst : ∀ (n l : List Effect) (m : Monitors),
      (n = [] ∨ n = [.notified "RELOADING=1\n"]) →
      (n ++ l).foldl Monitors.note m = l.foldl Monitors.note m := by
    rintro n l m (rfl | rfl) <;> rfl
  obtain ⟨n, hn, rfl⟩ := hedge.kickoff_or.resolve_right (by simp [hk])
  simp only [hfirst _ _ _ hn]
  unfold fsmStartingEventKickoff
  dsimp only
  split
  · exact Or.inl ⟨rfl, by rcases hn with rfl | rfl <;> simp⟩
  · refine Or.inr ?_
    rcases writeConfiguration_cases p config o.kickoff (updateContext p config ctx) with
      ⟨ca, -, hr⟩ | ⟨-, hr⟩
    · rw [hr]
      rfl
    · rw [hr]
      rfl

/-! ## Runs -/

/-- The condition: there is no kickoff once a handler is connected. -/
def NoSecondKickoff (m : Machine) : Prop :=
  isKickoff m.ctx.currentState m.event = true → (monitors m.log).live = 0

instance : DecidablePred NoSecondKickoff :=
  fun _ => inferInstanceAs (Decidable (_ → _))

/-- The invariant: no handler is lost, and a successful kickoff has left one. -/
structure Subscribed (log : List Effect) : Prop where
  noLeak : ¬ (monitors log).Leaks
  live : ∀ lines, .confWritten lines ∈ log → (monitors log).live ≠ 0

lemma Subscribed.append {log l : List Effect} (h : Subscribed log)
    (hl : ∀ e ∈ l, e.sparesMonitors = true) (hconf : ∀ lines, .confWritten lines ∉ l) :
    Subscribed (log ++ l) where
  noLeak := by
    rw [monitors_append_of_spares hl]
    exact h.noLeak
  live := by
    intro lines hmem
    rw [monitors_append_of_spares hl]
    exact h.live lines ((List.mem_append.mp hmem).resolve_right (hconf lines))

/-- Every iteration that meets the condition preserves the invariant. -/
lemma Subscribed.edge {o : Outcomes} {ctx : Context} {event : FsmEvent} {log : List Effect}
    {r : ActionResult} (h : Subscribed log) (hok : NoSecondKickoff ⟨ctx, event, log⟩)
    (hedge : Edge p config o ctx event r) :
    Subscribed (log ++ .transitionMade ctx.currentState event :: r.effects) := by
  have hmem : ∀ lines, .confWritten lines ∈
      log ++ .transitionMade ctx.currentState event :: r.effects →
      .confWritten lines ∈ log ∨ .confWritten lines ∈ r.effects := by
    intro lines hmem
    simpa using hmem
  by_cases hk : isKickoff ctx.currentState event = true
  · have hzero : (monitors log).live = 0 := hok hk
    rcases hedge.monitors_kickoff hk log with ⟨heq, hnone⟩ | heq
    · refine ⟨?_, fun lines hlines => ?_⟩
      · rw [heq, hzero]
        decide
      · rcases hmem lines hlines with hbefore | hnew
        · exact absurd hzero (h.live lines hbefore)
        · exact absurd hnew (hnone lines)
    · refine ⟨?_, fun lines _ => ?_⟩
      · rw [heq, hzero]
        decide
      · rw [heq]
        simp
  · rw [Bool.not_eq_true] at hk
    refine ⟨?_, fun lines hlines => ?_⟩
    · rw [hedge.monitors_eq hk]
      exact h.noLeak
    · rw [hedge.monitors_eq hk]
      rcases hmem lines hlines with hbefore | hnew
      · exact h.live lines hbefore
      · exact absurd (hedge.isOf hnew) (by simp [Effect.isOf, hk])

lemma Subscribed.micro {a b : Moment} (h : Subscribed a.log)
    (hstep : Micro p config NoSecondKickoff a b) : Subscribed b.log := by
  cases hstep with
  | edge hok hedge => exact h.edge hok hedge
  | receive | skipped => exact h
  | parsed | refused | replied | rejected | reloadReplied | nameLost =>
    exact h.append (by simp [Effect.sparesMonitors]) (by simp)

/-- A kickoff with a handler connected loses a handler. -/
lemma leaks_of_second_kickoff (o : Outcomes) (m : Machine) (h : ¬ NoSecondKickoff m) :
    ∃ m', transition p config o m = some m' ∧ (monitors m'.log).Leaks := by
  obtain ⟨hk, hlive⟩ : isKickoff m.ctx.currentState m.event = true ∧ (monitors m.log).live ≠ 0 := by
    simpa [NoSecondKickoff] using h
  have haction : transitionAction p config o m.ctx m.event ≠ none := by
    revert hk
    cases hs : m.ctx.currentState <;> cases m.event <;> simp [isKickoff, transitionAction, hs]
  obtain ⟨r, hr⟩ := Option.ne_none_iff_exists'.mp haction
  refine ⟨_, by rw [transition, hr]; rfl, ?_⟩
  rcases (edge_of_transitionAction hr).monitors_kickoff hk m.log with ⟨heq, -⟩ | heq
  · rw [heq]
    exact hlive
  · rw [heq]
    exact hlive

/-- One subscription at a time.  For every run: at most one handler is connected (exactly one after
a kickoff that succeeded), so that a change of the status file is handled at most once, and
destroying the service management context releases every handler, if and only if no iteration of the
run is a kickoff with a handler already connected. -/
theorem one_subscription_iff (p : Platform) (config : Config) (is : List Input) :
    ((monitors ((daemon p config).run is).log).live ≤ 1 ∧
      ((∃ lines, .confWritten lines ∈ ((daemon p config).run is).log) →
        (monitors ((daemon p config).run is).log).live = 1) ∧
      (monitors ((daemon p config).run is).log).destroy.live = 0) ↔
    RunMeets p config NoSecondKickoff is := by
  constructor
  · rintro ⟨-, -, hreleased⟩
    exact runMeets_of_log (B := fun log => (monitors log).Leaks)
      (fun _ _ hlog hleaks => leaks_of_longer hlog hleaks) leaks_of_second_kickoff
      (not_not.mpr hreleased)
  · intro his
    have hinitial : Subscribed Daemon.initial.moment.log :=
      ⟨by decide, fun _ hmem => by cases hmem⟩
    have hrun : Subscribed ((daemon p config).run is).log :=
      invariant_of_micro (J := fun a => Subscribed a.log) (fun _ _ ha hstep => ha.micro hstep)
        hinitial his
    have hreleased := not_not.mp hrun.noLeak
    have hle : (monitors ((daemon p config).run is).log).live ≤ 1 := by
      revert hreleased
      unfold Monitors.destroy
      split
      · intro hzero
        exact Nat.sub_eq_zero_iff_le.mp hzero
      · intro hzero
        omega
    refine ⟨hle, ?_, hreleased⟩
    rintro ⟨lines, hlines⟩
    have hlive := hrun.live lines hlines
    omega

/-- The cache is started and a Reload is requested: the status file is watched twice, and one of
the two handlers is never released. -/
theorem two_subscriptions_after_reload :
    (monitors ((daemon .plain .plain).run
      [.ok .nameAcquired, .ok (.jobFinished "done"), .ok .reloadCall]).log).live = 2 ∧
    (monitors ((daemon .plain .plain).run
      [.ok .nameAcquired, .ok (.jobFinished "done"),
        .ok .reloadCall]).log).destroy.live = 1 := by
  decide

end Dnsconfd
