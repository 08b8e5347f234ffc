import Dnsconfd.DbusServer.Daemon
import Dnsconfd.Fsm.Serials

/-!
# Replies to Update calls

What a client can conclude from the serial in the reply to an Update call that is not rejected.  It is
the serial of the configuration the daemon was asked for, which the daemon later announces.  No serial
is ever 0, the number in the replies to rejected calls.

The log tells the story of a call: `updateParsed` when its arguments have been decoded,
`updateReplied` when it is answered, `updateSucceeded` and `serialSignal` when a configuration has
been applied and announced, and `transitionMade` for every iteration of the state machine,
from which the advances of the serial can be counted.
-/

namespace Dnsconfd

open Library

variable {p : Platform} {config : Config} {ok : Machine → Prop}

/-! ## Small steps and serials -/

/-- Effects that neither belong to an iteration nor concern an applied configuration. -/
def Effect.isAside : Effect → Bool
  | .transitionMade _ _ => false
  | .updateSucceeded _ => false
  | .serialSignal _ => false
  | _ => true

/-- A step beside the state machine: it keeps the state, the serials and the dynamic servers in
use, and notes nothing about them. -/
structure Aside (a b : Moment) : Prop where
  state : b.ctx.currentState = a.ctx.currentState
  requested : b.ctx.requestedConfigurationSerial = a.ctx.requestedConfigurationSerial
  current : b.ctx.currentConfigurationSerial = a.ctx.currentConfigurationSerial
  dynamic : b.ctx.currentDynamicServers = a.ctx.currentDynamicServers
  effects : ∃ l, b.log = a.log ++ l ∧ ∀ e ∈ l, e.isAside = true

/-- A small step is an iteration of the state machine or a step beside it. -/
lemma Micro.edge_or_aside {a b : Moment} (h : Micro p config ok a b) :
    (∃ o r, Edge p config o a.ctx a.event r ∧
      b = ⟨⟨r.ctx, r.event,
        a.log ++ .transitionMade a.ctx.currentState a.event :: r.effects⟩, a.answering⟩) ∨
    Aside a b := by
  cases h with
  | edge hok hedge => exact Or.inl ⟨_, _, hedge, rfl⟩
  | receive he hu => exact Or.inr ⟨rfl, rfl, rfl, rfl, [], by simp, by simp⟩
  | parsed servers mode => exact Or.inr ⟨rfl, rfl, rfl, rfl, _, rfl, by simp [Effect.isAside]⟩
  | refused hrefused => exact Or.inr ⟨rfl, rfl, rfl, rfl, _, rfl, by simp [Effect.isAside]⟩
  | skipped hrefused => exact Or.inr ⟨rfl, rfl, rfl, rfl, [], by simp, by simp⟩
  | replied => exact Or.inr ⟨rfl, rfl, rfl, rfl, _, rfl, by simp [Effect.isAside]⟩
  | rejected error => exact Or.inr ⟨rfl, rfl, rfl, rfl, _, rfl, by simp [Effect.isAside]⟩
  | reloadReplied => exact Or.inr ⟨rfl, rfl, rfl, rfl, _, rfl, by simp [Effect.isAside]⟩
  | nameLost => exact Or.inr ⟨rfl, rfl, rfl, rfl, _, rfl, by simp [Effect.isAside]⟩

/-! ## Serials are never zero -/

/-- Both serials of a moment are other than zero. -/
def SerialsNonzero (a : Moment) : Prop :=
  a.ctx.requestedConfigurationSerial ≠ 0 ∧ a.ctx.currentConfigurationSerial ≠ 0

/-- No small step makes a serial zero. -/
lemma serialsNonzero_micro {a b : Moment} (ha : SerialsNonzero a) (h : Micro p config ok a b) :
    SerialsNonzero b := by
  obtain ⟨hreq, hcur⟩ := ha
  rcases h.edge_or_aside with ⟨o, r, hedge, rfl⟩ | haside
  · unfold SerialsNonzero
    cases hedge.serialChange with
    | takeover hs hreq' hcur' hdyn hstate hquiet =>
      rw [hreq', hcur']
      exact ⟨nextSerial_ne_zero _, hcur⟩
    | kickoff hs hreq' hcur' hdyn hstate hquiet =>
      rw [hreq', hcur']
      exact ⟨nextSerial_ne_zero _, hcur⟩
    | applied hs hevent hreq' hcur' hdyn hstate hquiet heffects =>
      rw [hreq', hcur']
      exact ⟨hreq, hreq⟩
    | quiet hs hreq' hcur' hdyn hrunning hupdating hquiet =>
      rw [hreq', hcur']
      exact ⟨hreq, hcur⟩
  · rw [SerialsNonzero, haside.requested, haside.current]
    exact ⟨hreq, hcur⟩

/-- In every state that the daemon reaches both serials are other than zero. -/
lemma serialsNonzero_run (is : List Input) : SerialsNonzero ((daemon p config).run is).moment := by
  have hinit : SerialsNonzero Daemon.initial.moment := ⟨by decide, by decide⟩
  exact invariant_of_micro_true (fun _ _ ha h => serialsNonzero_micro ha h) hinit is

/-! ## Counting the advances of the serial -/

/-- The effect notes an iteration that advances the serial. -/
def Effect.isAdvance : Effect → Bool
  | .transitionMade state event => Dnsconfd.isAdvance state event
  | _ => false

/-- How many times the serial advanced while the given effects took place. -/
def advancesIn (effects : List Effect) : ℕ :=
  effects.countP Effect.isAdvance

/-- How many times the serial advanced since a configuration was last applied, one effect later. -/
def pendingStep (n : ℕ) : Effect → ℕ
  | .transitionMade state event => if isAdvance state event then n + 1 else n
  | .serialSignal _ => 0
  | _ => n

/-- How many times the serial advanced since a configuration was last applied. -/
def pendingAdvances (log : List Effect) : ℕ :=
  log.foldl pendingStep 0

@[simp] lemma advancesIn_append (l₁ l₂ : List Effect) :
    advancesIn (l₁ ++ l₂) = advancesIn l₁ + advancesIn l₂ :=
  List.countP_append

@[simp] lemma advancesIn_cons (e : Effect) (l : List Effect) :
    advancesIn (e :: l) = advancesIn l + if e.isAdvance then 1 else 0 :=
  List.countP_cons

@[simp] lemma advancesIn_nil : advancesIn [] = 0 := rfl

/-- A quiet effect is one beside the state machine. -/
lemma isAside_of_isQuiet {e : Effect} (h : e.isQuiet = true) : e.isAside = true := by
  cases e <;> first | rfl | cases h

/-- Effects beside the state machine are no advances. -/
lemma advancesIn_eq_zero {l : List Effect} (h : ∀ e ∈ l, e.isAside = true) : advancesIn l = 0 := by
  rw [advancesIn, List.countP_eq_zero]
  intro e he
  have haside := h e he
  cases e with
  | transitionMade state event => cases haside
  | _ => simp [Effect.isAdvance]

/-- Effects beside the state machine leave the count as it is. -/
lemma foldl_pendingStep_eq {l : List Effect} (h : ∀ e ∈ l, e.isAside = true) (n : ℕ) :
    l.foldl pendingStep n = n := by
  refine foldl_eq_self (fun e he k => ?_) n
  have haside := h e he
  cases e <;> first | rfl | cases haside

/-- The requested serial is ahead of the current one by the pending advances. -/
def SerialsApart (a : Moment) : Prop :=
  a.ctx.requestedConfigurationSerial =
    nextSerial^[pendingAdvances a.log] a.ctx.currentConfigurationSerial

lemma serialsApart_micro {a b : Moment} (ha : SerialsApart a) (h : Micro p config ok a b) :
    SerialsApart b := by
  unfold SerialsApart pendingAdvances at ha ⊢
  rcases h.edge_or_aside with ⟨o, r, hedge, rfl⟩ | haside
  · simp only [List.foldl_append, List.foldl_cons]
    cases hedge.serialChange with
    | takeover hs hreq hcur hdyn hstate hquiet =>
      rw [foldl_pendingStep_eq fun e he => isAside_of_isQuiet (hquiet e he), hreq, hcur, ha]
      simp only [pendingStep, isAdvance, hs, Bool.true_or, if_true]
      exact (Function.iterate_succ_apply' _ _ _).symm
    | kickoff hs hreq hcur hdyn hstate hquiet =>
      rw [foldl_pendingStep_eq fun e he => isAside_of_isQuiet (hquiet e he), hreq, hcur, ha]
      simp only [pendingStep, isAdvance, hs, Bool.or_true, if_true]
      exact (Function.iterate_succ_apply' _ _ _).symm
    | applied hs hevent hreq hcur hdyn hstate hquiet heffects =>
      rw [heffects, List.foldl_append, hreq, hcur]
      rfl
    | quiet hs hreq hcur hdyn hrunning hupdating hquiet =>
      rw [foldl_pendingStep_eq fun e he => isAside_of_isQuiet (hquiet e he), hreq, hcur, ha]
      simp [pendingStep, hs]
  · obtain ⟨l, hlog, hl⟩ := haside.effects
    rw [hlog, List.foldl_append, foldl_pendingStep_eq hl, haside.requested, haside.current]
    exact ha

/-! ## Acknowledged Updates -/

/-- The serial `t` is `serial` or one of those that followed; in the former case the servers `D`
have been applied. -/
def Attributed (D : List ServerUri) (serial : UInt32) (new : List Effect) (t : UInt32) : Prop :=
  ∃ n ≤ advancesIn new, t = nextSerial^[n] serial ∧ (n = 0 → .updateSucceeded D ∈ new)

lemma Attributed.mono {D : List ServerUri} {serial t : UInt32} {new : List Effect}
    (h : Attributed D serial new t) (l : List Effect) : Attributed D serial (new ++ l) t := by
  obtain ⟨n, hn, ht, hsucc⟩ := h
  refine ⟨n, ?_, ht, fun h0 => List.mem_append_left _ (hsucc h0)⟩
  rw [advancesIn_append]
  omega

/-- What holds after a call has been answered with `serial`, when the current serial was `c` and
the servers `D` of the call were in use; `new` is what happened since. -/
structure AfterReply (D : List ServerUri) (serial c : UInt32) (ctx : Context)
    (new : List Effect) : Prop where
  requested : ctx.requestedConfigurationSerial = nextSerial^[advancesIn new] serial
  dynamic : advancesIn new = 0 → ctx.currentDynamicServers = D
  signals : ∀ t, .serialSignal t ∈ new → Attributed D serial new t
  current : ctx.currentConfigurationSerial = c ∨
    Attributed D serial new ctx.currentConfigurationSerial

/-- Effects beside the state machine do not announce serials. -/
lemma serialSignal_not_mem_of_isAside {l : List Effect} (h : ∀ e ∈ l, e.isAside = true)
    {t : UInt32} : .serialSignal t ∉ l :=
  fun ht => by simpa [Effect.isAside] using h _ ht

/-- What an iteration that is beside the point, or a step beside the state machine, adds to the
story. -/
lemma AfterReply.extend {D : List ServerUri} {serial c : UInt32} {ctx ctx' : Context}
    {new l : List Effect} (h : AfterReply D serial c ctx new)
    (hreq : ctx'.requestedConfigurationSerial = nextSerial^[advancesIn (new ++ l)] serial)
    (hdyn : advancesIn (new ++ l) = 0 → ctx'.currentDynamicServers = ctx.currentDynamicServers)
    (hcur : ctx'.currentConfigurationSerial = ctx.currentConfigurationSerial)
    (hl : ∀ t, .serialSignal t ∉ l) : AfterReply D serial c ctx' (new ++ l) where
  requested := hreq
  dynamic h0 := by
    have hnew : advancesIn new = 0 := by
      rw [advancesIn_append] at h0
      omega
    rw [hdyn h0]
    exact h.dynamic hnew
  signals t ht := by
    rcases List.mem_append.mp ht with ht | ht
    · exact (h.signals t ht).mono l
    · exact absurd ht (hl t)
  current := by
    rw [hcur]
    exact h.current.imp_right fun hattr => hattr.mono l

/-- Nothing in the state SETTING_RESOLV_CONF advances the serial. -/
lemma isAdvance_settingResolvConf (event : FsmEvent) :
    isAdvance .settingResolvConf event = false := by
  cases event <;> rfl

/-- The effects of an iteration that applies a configuration. -/
lemma advancesIn_applied {state : FsmState} {event : FsmEvent} {commands : List Effect}
    {D : List ServerUri} {text : String} {serial : UInt32} (hs : state = .settingResolvConf)
    (hquiet : ∀ e ∈ commands, e.isQuiet = true) :
    advancesIn (.transitionMade state event ::
      (commands ++ [.updateSucceeded D, .notified text, .serialSignal serial])) = 0 := by
  have hcommands := advancesIn_eq_zero fun e he => isAside_of_isQuiet (hquiet e he)
  simp [hcommands, hs, Effect.isAdvance, isAdvance_settingResolvConf]

/-- An iteration with quiet effects announces nothing. -/
lemma serialSignal_not_mem_of_isQuiet {state : FsmState} {event : FsmEvent} {l : List Effect}
    (hquiet : ∀ e ∈ l, e.isQuiet = true) (t : UInt32) :
    .serialSignal t ∉ Effect.transitionMade state event :: l := by
  intro ht
  rcases List.mem_cons.mp ht with ht | ht
  · cases ht
  · exact serialSignal_not_mem_of_isAside (fun e he => isAside_of_isQuiet (hquiet e he)) ht

/-- How an iteration with quiet effects is counted. -/
lemma advancesIn_quiet {state : FsmState} {event : FsmEvent} {new l : List Effect}
    (hquiet : ∀ e ∈ l, e.isQuiet = true) :
    advancesIn (new ++ .transitionMade state event :: l) =
      advancesIn new + if isAdvance state event then 1 else 0 := by
  rw [advancesIn_append, advancesIn_cons,
    advancesIn_eq_zero fun e he => isAside_of_isQuiet (hquiet e he), Nat.zero_add]
  rfl

/-- The only serial that an iteration announces is the requested one, when it is applied. -/
lemma serialSignal_mem_applied {state : FsmState} {event : FsmEvent} {commands : List Effect}
    {D : List ServerUri} {text : String} {serial t : UInt32}
    (hquiet : ∀ e ∈ commands, e.isQuiet = true)
    (ht : .serialSignal t ∈ Effect.transitionMade state event ::
      (commands ++ [.updateSucceeded D, .notified text, .serialSignal serial])) :
    t = serial := by
  simp only [List.mem_cons, List.mem_append, List.not_mem_nil, or_false, reduceCtorEq,
    Effect.serialSignal.injEq, false_or] at ht
  rcases ht with ht | ht
  · exact absurd ht (serialSignal_not_mem_of_isAside fun e he => isAside_of_isQuiet (hquiet e he))
  · exact ht

/-- The story goes on when the requested configuration is applied. -/
lemma AfterReply.applied {D : List ServerUri} {serial c : UInt32} {ctx ctx' : Context}
    {new l : List Effect} (h : AfterReply D serial c ctx new)
    (hreq : ctx'.requestedConfigurationSerial = ctx.requestedConfigurationSerial)
    (hdyn : ctx'.currentDynamicServers = ctx.currentDynamicServers)
    (hcur : ctx'.currentConfigurationSerial = ctx.requestedConfigurationSerial)
    (hcount : advancesIn l = 0) (hsucc : .updateSucceeded ctx.currentDynamicServers ∈ l)
    (hl : ∀ t, .serialSignal t ∈ l → t = ctx.requestedConfigurationSerial) :
    AfterReply D serial c ctx' (new ++ l) := by
  have hcount' : advancesIn (new ++ l) = advancesIn new := by
    rw [advancesIn_append, hcount, Nat.add_zero]
  have hattr : Attributed D serial (new ++ l) ctx.requestedConfigurationSerial := by
    refine ⟨advancesIn new, hcount'.ge, h.requested, fun h0 => List.mem_append_right _ ?_⟩
    rw [← h.dynamic h0]
    exact hsucc
  refine ⟨?_, ?_, ?_, ?_⟩
  · rw [hreq, hcount', h.requested]
  · intro h0
    rw [hdyn]
    exact h.dynamic (by rw [← hcount', h0])
  · intro t ht
    rcases List.mem_append.mp ht with ht | ht
    · exact (h.signals t ht).mono l
    · rw [hl t ht]
      exact hattr
  · rw [hcur]
    exact Or.inr hattr

/-- The story goes on with every small step. -/
lemma AfterReply.micro {D : List ServerUri} {serial c : UInt32} {a b : Moment}
    {new : List Effect} (h : AfterReply D serial c a.ctx new) (hstep : Micro p config ok a b) :
    ∃ l, b.log = a.log ++ l ∧ AfterReply D serial c b.ctx (new ++ l) := by
  rcases hstep.edge_or_aside with ⟨o, r, hedge, rfl⟩ | haside
  · refine ⟨.transitionMade a.ctx.currentState a.event :: r.effects, rfl, ?_⟩
    -- what both ways of advancing the serial have in common
    have hadvance (hs : isAdvance a.ctx.currentState a.event = true)
        (hreq : r.ctx.requestedConfigurationSerial =
          nextSerial a.ctx.requestedConfigurationSerial)
        (hcur : r.ctx.currentConfigurationSerial = a.ctx.currentConfigurationSerial)
        (hquiet : ∀ e ∈ r.effects, e.isQuiet = true) :
        AfterReply D serial c r.ctx (new ++ .transitionMade a.ctx.currentState a.event ::
          r.effects) := by
      have hcount : advancesIn (new ++ .transitionMade a.ctx.currentState a.event ::
          r.effects) = advancesIn new + 1 := by
        rw [advancesIn_quiet hquiet, if_pos hs]
      refine h.extend ?_ ?_ hcur (serialSignal_not_mem_of_isQuiet hquiet)
      · rw [hcount, Function.iterate_succ_apply', ← h.requested]
        exact hreq
      · intro h0
        omega
    cases hedge.serialChange with
    | takeover hs hreq hcur hdyn hstate hquiet =>
      exact hadvance (by rw [isAdvance, hs]; rfl) hreq hcur hquiet
    | kickoff hs hreq hcur hdyn hstate hquiet =>
      exact hadvance (by rw [isAdvance, hs, Bool.or_true]) hreq hcur hquiet
    | applied hs hevent hreq hcur hdyn hstate hquiet heffects =>
      rw [heffects]
      exact h.applied hreq hdyn hcur (advancesIn_applied hs hquiet) (by simp)
        fun t ht => serialSignal_mem_applied hquiet ht
    | quiet hs hreq hcur hdyn hrunning hupdating hquiet =>
      refine h.extend ?_ (fun _ => hdyn) hcur (serialSignal_not_mem_of_isQuiet hquiet)
      rw [advancesIn_quiet hquiet, hs, if_neg Bool.false_ne_true, Nat.add_zero, ← h.requested]
      exact hreq
  · obtain ⟨l, hlog, hl⟩ := haside.effects
    refine ⟨l, hlog, h.extend ?_ (fun _ => haside.dynamic) haside.current
      fun t => serialSignal_not_mem_of_isAside hl⟩
    rw [advancesIn_append, advancesIn_eq_zero hl, Nat.add_zero, haside.requested]
    exact h.requested

/-- What holds while an Update call with the servers `D` is being handled, from the point where its
arguments have been decoded; the serials before the call were `r₀` and `c₀`. -/
structure DuringCall (D : List ServerUri) (r₀ c₀ : UInt32) (ctx : Context) (event : FsmEvent)
    (new : List Effect) : Prop where
  requested : ctx.requestedConfigurationSerial = nextSerial^[advancesIn new] r₀
  taken : (event = .update ∧ isTakeover ctx.currentState .update = true ∧
      ctx.newDynamicServers = D) ∨
    (event ≠ .update ∧ 0 < advancesIn new ∧ ctx.currentDynamicServers = D)
  signals : ∀ t, .serialSignal t ∈ new → .updateSucceeded D ∈ new
  current : ctx.currentConfigurationSerial = c₀ ∨ .updateSucceeded D ∈ new

/-- The call goes on with every iteration. -/
lemma DuringCall.edge {D : List ServerUri} {r₀ c₀ : UInt32} {o : Outcomes} {ctx : Context}
    {event : FsmEvent} {r : ActionResult} {new : List Effect}
    (h : DuringCall D r₀ c₀ ctx event new) (hedge : Edge p config o ctx event r) :
    DuringCall D r₀ c₀ r.ctx r.event
      (new ++ .transitionMade ctx.currentState event :: r.effects) := by
  have hsignals : (∀ e ∈ r.effects, e.isQuiet = true) → ∀ t,
      .serialSignal t ∈ new ++ .transitionMade ctx.currentState event :: r.effects →
        .updateSucceeded D ∈ new ++ .transitionMade ctx.currentState event :: r.effects := by
    intro hquiet t ht
    rcases List.mem_append.mp ht with ht | ht
    · exact List.mem_append_left _ (h.signals t ht)
    · exact absurd ht (serialSignal_not_mem_of_isQuiet hquiet t)
  have hcurrent : r.ctx.currentConfigurationSerial = ctx.currentConfigurationSerial →
      r.ctx.currentConfigurationSerial = c₀ ∨
        .updateSucceeded D ∈ new ++ .transitionMade ctx.currentState event :: r.effects := by
    intro hcur
    rw [hcur]
    exact h.current.imp_right fun hmem => List.mem_append_left _ hmem
  cases hedge.serialChange with
  | takeover hs hreq hcur hdyn hstate hquiet =>
    have hcount : advancesIn (new ++ .transitionMade ctx.currentState event :: r.effects) =
        advancesIn new + 1 := by
      rw [advancesIn_quiet hquiet, isAdvance, hs]
      rfl
    refine ⟨?_, Or.inr ⟨hedge.event_ne_update, by omega, ?_⟩, hsignals hquiet, hcurrent hcur⟩
    · rw [hcount, Function.iterate_succ_apply', ← h.requested]
      exact hreq
    · rcases h.taken with ⟨-, -, hnew⟩ | ⟨hne, -, -⟩
      · rw [hdyn, hnew]
      · revert hs
        cases ctx.currentState <;> cases event <;> simp_all [isTakeover]
  | kickoff hs hreq hcur hdyn hstate hquiet =>
    have hcount : advancesIn (new ++ .transitionMade ctx.currentState event :: r.effects) =
        advancesIn new + 1 := by
      rw [advancesIn_quiet hquiet, isAdvance, hs, Bool.or_true]
      rfl
    refine ⟨?_, Or.inr ⟨hedge.event_ne_update, by omega, ?_⟩, hsignals hquiet, hcurrent hcur⟩
    · rw [hcount, Function.iterate_succ_apply', ← h.requested]
      exact hreq
    · rcases h.taken with ⟨hevent, -, -⟩ | ⟨-, -, hD⟩
      · rw [hevent] at hs
        revert hs
        cases ctx.currentState <;> simp [isKickoff]
      · rw [hdyn, hD]
  | applied hs hevent hreq hcur hdyn hstate hquiet heffects =>
    rcases h.taken with ⟨-, htake, -⟩ | ⟨-, hpos, hD⟩
    · rw [hs] at htake
      cases htake
    · have hcount := advancesIn_append new (.transitionMade ctx.currentState event ::
        r.effects)
      rw [heffects, advancesIn_applied hs hquiet, Nat.add_zero] at hcount
      have hsucc : .updateSucceeded D ∈
          new ++ .transitionMade ctx.currentState event :: r.effects := by
        rw [heffects, hD]
        simp
      rw [heffects] at hsucc ⊢
      refine ⟨?_, Or.inr ⟨hedge.event_ne_update, by omega, ?_⟩, fun _ _ => hsucc, Or.inr hsucc⟩
      · rw [hcount, hreq, h.requested]
      · rw [hdyn, hD]
  | quiet hs hreq hcur hdyn hrunning hupdating hquiet =>
    have hcount : advancesIn (new ++ .transitionMade ctx.currentState event :: r.effects) =
        advancesIn new := by
      rw [advancesIn_quiet hquiet, hs]
      rfl
    rcases h.taken with ⟨hevent, htake, -⟩ | ⟨-, hpos, hD⟩
    · rw [hevent, isAdvance, htake] at hs
      cases hs
    · refine ⟨?_, Or.inr ⟨hedge.event_ne_update, by omega, ?_⟩, hsignals hquiet, hcurrent hcur⟩
      · rw [hcount, hreq, h.requested]
      · rw [hdyn, hD]

/-- An Update in a state that takes it over is handled to its end. -/
lemma duringCall_dispatch {before : Daemon} {o : Outcomes} (D : List ServerUri) (m : Mode)
    (htake : isTakeover before.ctx.currentState .update = true) :
    ∃ new, (dispatch p config o .update (before.receive D m)).log = before.log ++ new ∧
      DuringCall D before.ctx.requestedConfigurationSerial before.ctx.currentConfigurationSerial
        (dispatch p config o .update (before.receive D m)).ctx .none new := by
  have hacc : (stateTransition p config o (before.receive D m).ctx .update
      (before.receive D m).log).accepted = true := by
    by_contra hacc
    have hnone := (stateTransition_unchanged (Bool.eq_false_iff.mpr hacc)).1
    revert htake hnone
    cases hs : before.ctx.currentState <;>
      simp [isTakeover, transitionAction, Daemon.receive, hs]
  have harrival : DuringCall D before.ctx.requestedConfigurationSerial
      before.ctx.currentConfigurationSerial (before.receive D m).ctx .update
      [.updateParsed D m] :=
    ⟨rfl, Or.inl ⟨rfl, htake, rfl⟩, by simp, Or.inl rfl⟩
  have hloop : ∃ new, (stateTransition p config o (before.receive D m).ctx .update
      (before.receive D m).log).state.log = before.log ++ new ∧
      DuringCall D before.ctx.requestedConfigurationSerial before.ctx.currentConfigurationSerial
        (stateTransition p config o (before.receive D m).ctx .update
          (before.receive D m).log).state.ctx
        (stateTransition p config o (before.receive D m).ctx .update
          (before.receive D m).log).state.event new := by
    refine stateTransition_invariant (J := fun mach => ∃ new, mach.log = before.log ++ new ∧
      DuringCall D before.ctx.requestedConfigurationSerial before.ctx.currentConfigurationSerial
        mach.ctx mach.event new) ?_ ⟨[.updateParsed D m], rfl, harrival⟩
    rintro ctx event log r ⟨new, hlog, hcall⟩ hedge
    refine ⟨_, ?_, hcall.edge hedge⟩
    change log ++ _ = _
    rw [show log = before.log ++ new from hlog, List.append_assoc]
  rw [dispatch_of_accepted hacc]
  rw [(stateTransition_rests hacc).1] at hloop
  exact hloop

/-- Effects that tell of an applied configuration. -/
def Effect.isApplied : Effect → Bool
  | .updateSucceeded _ => true
  | .serialSignal _ => true
  | _ => false

lemma isApplied_of_isAside {e : Effect} (h : e.isAside = true) : e.isApplied = false := by
  cases e <;> first | rfl | cases h

/-- The daemon has stopped or waits for the cache to stop, its serials are `r₀` and `c₀`, and no
configuration has been applied since the log was `base`. -/
structure Stopped (base : List Effect) (r₀ c₀ : UInt32) (a : Moment) : Prop where
  state : a.ctx.currentState = .waitingStopJob ∨ a.ctx.currentState = .stopping
  requested : a.ctx.requestedConfigurationSerial = r₀
  current : a.ctx.currentConfigurationSerial = c₀
  log : ∃ new, a.log = base ++ new ∧ ∀ e ∈ new, e.isApplied = false

/-- A daemon that stops applies nothing more. -/
lemma Stopped.micro {base : List Effect} {r₀ c₀ : UInt32} {a b : Moment}
    (h : Stopped base r₀ c₀ a) (hstep : Micro p config ok a b) : Stopped base r₀ c₀ b := by
  obtain ⟨new, hlog, hnew⟩ := h.log
  have hextend : ∀ l, (∀ e ∈ l, e.isApplied = false) →
      ∃ new', a.log ++ l = base ++ new' ∧ ∀ e ∈ new', e.isApplied = false := by
    intro l hl
    refine ⟨new ++ l, by rw [hlog, List.append_assoc], fun e he => ?_⟩
    rcases List.mem_append.mp he with he | he
    · exact hnew e he
    · exact hl e he
  rcases hstep.edge_or_aside with ⟨o, r, hedge, rfl⟩ | haside
  · have hidle : isAdvance a.ctx.currentState a.event = false := by
      rcases h.state with hs | hs <;> rw [hs] <;> cases a.event <;> rfl
    cases hedge.serialChange with
    | takeover hs => rw [isAdvance, hs] at hidle; cases hidle
    | kickoff hs => rw [isAdvance, hs, Bool.or_true] at hidle; cases hidle
    | applied hs => rcases h.state with hs' | hs' <;> rw [hs] at hs' <;> cases hs'
    | quiet hs hreq hcur hdyn hrunning hupdating hquiet =>
      refine ⟨hedge.isStopped h.state, hreq.trans h.requested, hcur.trans h.current,
        hextend _ fun e he => ?_⟩
      rcases List.mem_cons.mp he with rfl | he
      · rfl
      · exact isApplied_of_isAside (isAside_of_isQuiet (hquiet e he))
  · obtain ⟨l, hl, haside'⟩ := haside.effects
    refine ⟨by rw [haside.state]; exact h.state, haside.requested.trans h.requested,
      haside.current.trans h.current, ?_⟩
    rw [hl]
    exact hextend l fun e he => isApplied_of_isAside (haside' e he)

/-- What the daemon did between two states of a run. -/
def newEffects (before later : Daemon) : List Effect :=
  later.log.drop before.log.length

/-- What was added to the log is what the daemon did. -/
lemma newEffects_eq {before later : Daemon} {new : List Effect}
    (h : later.log = before.log ++ new) : newEffects before later = new := by
  rw [newEffects, h, List.drop_left]

/-- A client that was answered with `serial` reports success: it reads the serial as the current one
or receives a signal that carries it. -/
def ClientSucceeds (before later : Daemon) (serial : UInt32) : Prop :=
  serial ≠ 0 ∧ (later.ctx.currentConfigurationSerial = serial ∨
    .serialSignal serial ∈ newEffects before later)

/-- A run after a call that was taken over. -/
lemma afterReply_run {D : List ServerUri} {answered : Daemon}
    (hdyn : answered.ctx.currentDynamicServers = D) (js : List Input) :
    ∃ new, ((daemon p config).runFrom answered js).log = answered.log ++ new ∧
      AfterReply D answered.ctx.requestedConfigurationSerial
        answered.ctx.currentConfigurationSerial ((daemon p config).runFrom answered js).ctx
        new := by
  refine invariant_of_micro_true (p := p) (J := fun a => ∃ new, a.log = answered.log ++ new ∧
    AfterReply D answered.ctx.requestedConfigurationSerial
      answered.ctx.currentConfigurationSerial a.ctx new) ?_ ?_ js
  · rintro a b ⟨new, hlog, hafter⟩ hstep
    obtain ⟨l, hl, hafter'⟩ := hafter.micro hstep
    exact ⟨new ++ l, by rw [hl, hlog, List.append_assoc], hafter'⟩
  · exact ⟨[], by simp [Daemon.moment], rfl, fun _ => hdyn, by simp, Or.inl rfl⟩

/-- The reply to a call that is taken over, and what a client can conclude from it. -/
lemma acknowledged_of_takeover {before : Daemon} (o : Outcomes) (D : List ServerUri) (m : Mode)
    (js : List Input) (htake : isTakeover before.ctx.currentState .update = true)
    (hnonzero : SerialsNonzero before.moment) (hapart : SerialsApart before.moment) :
    let answered := (dispatch p config o .update (before.receive D m)).accept
    let later := (daemon p config).runFrom answered js
    pendingAdvances before.log + advancesIn (newEffects before later) < 2 ^ 32 - 1 →
      answered.ctx.requestedConfigurationSerial ≠ before.ctx.currentConfigurationSerial ∧
      (ClientSucceeds before later answered.ctx.requestedConfigurationSerial →
        .updateSucceeded D ∈ newEffects before later) := by
  intro answered later hcycle
  obtain ⟨new₁, hlog₁, hcall⟩ := @duringCall_dispatch p config before o D m htake
  have hanswered : answered.log = before.log ++ (new₁ ++
      [.updateReplied answered.ctx.requestedConfigurationSerial "Update accepted"]) := by
    rw [← List.append_assoc, ← hlog₁]
    rfl
  obtain ⟨hpos, hD⟩ : 0 < advancesIn new₁ ∧ answered.ctx.currentDynamicServers = D := by
    rcases hcall.taken with ⟨h, -⟩ | ⟨-, hpos, hD⟩
    · cases h
    · exact ⟨hpos, hD⟩
  obtain ⟨new₂, hlog₂, hafter⟩ := @afterReply_run p config D answered hD js
  have hnew : newEffects before later = new₁ ++
      [.updateReplied answered.ctx.requestedConfigurationSerial "Update accepted"] ++ new₂ := by
    refine newEffects_eq ?_
    rw [show later.log = answered.log ++ new₂ from hlog₂, hanswered, List.append_assoc]
  have hcount : advancesIn (newEffects before later) = advancesIn new₁ + advancesIn new₂ := by
    rw [hnew]
    simp [Effect.isAdvance]
  have hserial : answered.ctx.requestedConfigurationSerial =
      nextSerial^[advancesIn new₁ + pendingAdvances before.log]
        before.ctx.currentConfigurationSerial := by
    rw [Function.iterate_add_apply]
    exact hcall.requested.trans (congrArg _ hapart)
  have hfresh : answered.ctx.requestedConfigurationSerial ≠
      before.ctx.currentConfigurationSerial := by
    rw [hserial]
    exact iterate_nextSerial_ne hnonzero.2 (by omega) (by omega)
  refine ⟨hfresh, ?_⟩
  rintro ⟨hne, hobserved⟩
  -- later serials differ from the one of the reply as long as the cycle is not complete
  have hattr : ∀ t, t = answered.ctx.requestedConfigurationSerial →
      Attributed D answered.ctx.requestedConfigurationSerial new₂ t →
        .updateSucceeded D ∈ newEffects before later := by
    rintro t ht ⟨n, hn, hiter, hsucc⟩
    rcases Nat.eq_zero_or_pos n with h0 | hnpos
    · rw [hnew]
      exact List.mem_append_right _ (hsucc h0)
    · rw [ht] at hiter
      exact absurd hiter.symm (iterate_nextSerial_ne hne hnpos (by omega))
  rcases hobserved with hcur | hsignal
  · rcases hafter.current with hsame | hlater
    · rcases hcall.current with hold | hsucc
      · exact absurd ((hcur.symm.trans hsame).trans hold) hfresh
      · rw [hnew]
        exact List.mem_append_left _ (List.mem_append_left _ hsucc)
    · exact hattr _ hcur hlater
  · rw [hnew] at hsignal
    rcases List.mem_append.mp hsignal with hsignal | hsignal
    · rcases List.mem_append.mp hsignal with hsignal | hsignal
      · rw [hnew]
        exact List.mem_append_left _ (List.mem_append_left _ (hcall.signals _ hsignal))
      · simp at hsignal
    · exact hattr _ rfl (hafter.signals _ hsignal)

/-- A run of a daemon that stops. -/
lemma stopped_run {before : Daemon}
    (hs : before.ctx.currentState = .waitingStopJob ∨ before.ctx.currentState = .stopping)
    (js : List Input) :
    Stopped before.log before.ctx.requestedConfigurationSerial
      before.ctx.currentConfigurationSerial ((daemon p config).runFrom before js).moment :=
  invariant_of_micro_true (fun _ _ ha h => ha.micro h)
    ⟨hs, rfl, rfl, [], by simp [Daemon.moment], by simp⟩ js

/-- No acknowledged Update is lost, under the stated condition: the call is made in a state that
takes Updates over, or else the requested serial is not the current one yet; and the serial does
not run through its whole cycle from when a configuration was last applied before the call until
the client's observation.  Then the reply to a valid call never carries a serial that was current
before, and a client that reports success is right: the servers of the call have been applied. -/
theorem acknowledged_update_applied (is js : List Input) (o : Outcomes)
    (isWireless : String → Bool) (servers : List VariantDict) (mode : UInt32)
    (D : List ServerUri) (m : Mode)
    (hdec : decodeUpdateCall p isWireless servers mode = .ok (D, m)) :
    let before := (daemon p config).run is
    let answered := before.step p config ⟨.updateCall servers mode, o, isWireless⟩
    let later := (daemon p config).runFrom answered js
    (isTakeover before.ctx.currentState .update = true ∨
      before.ctx.requestedConfigurationSerial ≠ before.ctx.currentConfigurationSerial) →
    pendingAdvances before.log + advancesIn (newEffects before later) < 2 ^ 32 - 1 →
    ∃ serial, answered.log.getLast? = some (.updateReplied serial "Update accepted") ∧
      serial ≠ before.ctx.currentConfigurationSerial ∧
      (ClientSucceeds before later serial → .updateSucceeded D ∈ newEffects before later) := by
  intro before answered later hstate hcycle
  have hanswered : answered = (dispatch p config o .update (before.receive D m)).accept := by
    change handleUpdateCall p config o isWireless servers mode before = _
    rw [handleUpdateCall, hdec]
  refine ⟨answered.ctx.requestedConfigurationSerial, by rw [hanswered]; simp [Daemon.accept], ?_⟩
  by_cases htake : isTakeover before.ctx.currentState .update = true
  · have hapart : SerialsApart before.moment :=
      invariant_of_micro_true (J := SerialsApart) (fun _ _ ha h => serialsApart_micro ha h)
        (d := Daemon.initial) (by rfl) is
    have htaken := @acknowledged_of_takeover p config before o D m js htake
      (serialsNonzero_run is) hapart
    rw [← hanswered] at htaken
    exact htaken hcycle
  · have hstopped : before.ctx.currentState = .waitingStopJob ∨
        before.ctx.currentState = .stopping := by
      have hrest := isResting_run p config is
      revert hrest htake
      change isTakeover before.ctx.currentState .update ≠ true →
        before.ctx.currentState.isResting = true → _
      cases before.ctx.currentState <;> simp [isTakeover, FsmState.isResting]
    have hne := hstate.resolve_left htake
    have hans := @stopped_run p config before hstopped
      [⟨.updateCall servers mode, o, isWireless⟩]
    have hlat := @stopped_run p config before hstopped
      (⟨.updateCall servers mode, o, isWireless⟩ :: js)
    have hserial : answered.ctx.requestedConfigurationSerial =
        before.ctx.requestedConfigurationSerial := hans.requested
    rw [hserial]
    refine ⟨hne, ?_⟩
    rintro ⟨-, hcur | hsignal⟩
    · exact absurd (hcur.symm.trans hlat.current) hne
    · obtain ⟨new, hlog, hnone⟩ := hlat.log
      have hnew : newEffects before later = new := newEffects_eq hlog
      rw [hnew] at hsignal
      exact absurd (hnone _ hsignal) (by simp [Effect.isApplied])

/-- The servers of an Update call that sends the address 192.0.2.1 and nothing else. -/
def plainServer : ServerUri :=
  setDefaults { ServerUri.initial with address := .inet documentationAddress 0 }

/-- An Update while the daemon is running is applied before it is answered. -/
theorem acknowledged_update_applied_running :
    let before := (daemon .plain .plain).run [.ok .nameAcquired, .ok (.jobFinished "done")]
    let answered := before.step .plain .plain
      (.ok (.updateCall [[("address", .byteString [192, 0, 2, 1])]] 0))
    let later := (daemon .plain .plain).runFrom answered []
    isTakeover before.ctx.currentState .update = true ∧
    pendingAdvances before.log + advancesIn (newEffects before later) < 2 ^ 32 - 1 ∧
    ∃ serial, answered.log.getLast? = some (.updateReplied serial "Update accepted") ∧
      serial ≠ before.ctx.currentConfigurationSerial ∧
      (ClientSucceeds before later serial →
        .updateSucceeded [plainServer] ∈ newEffects before later) :=
  ⟨by decide, by decide,
    acknowledged_update_applied _ [] _ _ _ 0 [plainServer] .backup rfl (Or.inl (by decide))
      (by decide)⟩

/-- An Update while the daemon waits for the cache to stop is answered with the serial that is
already current, so that the client reports success, but its server is not applied, whatever
happens later. -/
theorem acknowledged_update_lost :
    let before := (daemon .plain .plain).run
      [.ok .nameAcquired, .ok (.jobFinished "done"), .ok .sigterm]
    let call := Input.ok (.updateCall [[("address", .byteString [192, 0, 2, 1])]] 0)
    let answered := before.step .plain .plain call
    decodeUpdateCall .plain (fun _ => false) [[("address", .byteString [192, 0, 2, 1])]] 0 =
      .ok ([plainServer], .backup) ∧
    before.ctx.currentState = .waitingStopJob ∧ before.ctx.currentConfigurationSerial = 2 ∧
    answered.log.getLast? = some (.updateReplied 2 "Update accepted") ∧
    ClientSucceeds before answered 2 ∧
    ∀ js, .updateSucceeded [plainServer] ∉
      newEffects before ((daemon .plain .plain).runFrom answered js) := by
  intro before call answered
  refine ⟨rfl, by decide, by decide, by decide, ⟨by decide, Or.inl (by decide)⟩, fun js => ?_⟩
  obtain ⟨new, hlog, hnone⟩ :=
    (@stopped_run .plain .plain before (Or.inl (by decide)) (call :: js)).log
  have hnew : newEffects before ((daemon .plain .plain).runFrom answered js) = new :=
    newEffects_eq hlog
  rw [hnew]
  intro hmem
  exact absurd (hnone _ hmem) (by simp [Effect.isApplied])

end Dnsconfd
