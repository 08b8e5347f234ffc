import Dnsconfd.Fsm.EventLoop
import Mathlib.Logic.Function.Iterate

/-!
# The configuration serial

The serial advances whenever an Update is taken over or the cache is configured anew, and it is
announced when `update` has succeeded.  `SerialChange` says once what an iteration can do to the
serials and to the dynamic servers; the arithmetic of the advance is in `toNat_iterate_nextSerial`:
the serial runs through the numbers from 1 to 2³² - 1 in a cycle.
-/

namespace Dnsconfd

open Library

/-! ## Advancing the serial -/

/-- The advance in terms of natural numbers. -/
lemma toNat_nextSerial (serial : UInt32) :
    (nextSerial serial).toNat = if serial.toNat = 2 ^ 32 - 1 then 1 else serial.toNat + 1 := by
  have hlt : serial.toNat < 2 ^ 32 := serial.toNat_lt
  have hzero : serial + 1 = 0 ↔ serial.toNat = 2 ^ 32 - 1 := by
    rw [← UInt32.toNat_inj, UInt32.toNat_add]
    simp only [UInt32.reduceToNat]
    omega
  unfold nextSerial
  by_cases h : serial.toNat = 2 ^ 32 - 1
  · rw [if_pos (hzero.mpr h), if_pos h, UInt32.toNat_add, h]
    rfl
  · rw [if_neg (fun h' => h (hzero.mp h')), if_neg h, UInt32.toNat_add]
    simp only [UInt32.toNat_add, UInt32.reduceToNat]
    omega

/-- The advance skips zero. -/
lemma nextSerial_ne_zero (serial : UInt32) : nextSerial serial ≠ 0 := by
  intro h
  have hnat : (nextSerial serial).toNat = 0 := by rw [h]; rfl
  rw [toNat_nextSerial] at hnat
  split at hnat <;> omega

/-- The serial after several advances. -/
lemma toNat_iterate_nextSerial {serial : UInt32} (h : serial ≠ 0) (n : ℕ) :
    (nextSerial^[n] serial).toNat = 1 + (serial.toNat - 1 + n) % (2 ^ 32 - 1) := by
  have hpos : 0 < serial.toNat := by
    rw [Nat.pos_iff_ne_zero]
    intro h0
    exact h (UInt32.toNat_inj.mp h0)
  have hlt : serial.toNat < 2 ^ 32 := serial.toNat_lt
  induction n with
  | zero =>
    rw [Function.iterate_zero_apply, Nat.add_zero, Nat.mod_eq_of_lt (by omega)]
    omega
  | succ n ih =>
    rw [Function.iterate_succ_apply', toNat_nextSerial, ih]
    split_ifs with hmax
    · omega
    · omega

/-- The serial does not come back before it has run through the whole cycle. -/
lemma iterate_nextSerial_ne {serial : UInt32} (h : serial ≠ 0) {n : ℕ} (hpos : 0 < n)
    (hn : n < 2 ^ 32 - 1) : nextSerial^[n] serial ≠ serial := by
  intro heq
  have hnat := toNat_iterate_nextSerial h n
  have hlt : serial.toNat < 2 ^ 32 := serial.toNat_lt
  have hne : serial.toNat ≠ 0 := fun h0 => h (UInt32.toNat_inj.mp h0)
  rw [heq] at hnat
  omega

/-! ## What an iteration does to the serials -/

/-- The states and events on which an Update is taken over. -/
def isTakeover : FsmState → FsmEvent → Bool
  | .starting, .update => true
  | .waitingForStartJob, .update => true
  | .running, .update => true
  | _, _ => false

/-- The states and events on which the serial advances. -/
def isAdvance (state : FsmState) (event : FsmEvent) : Bool :=
  isTakeover state event || isKickoff state event

/-- Effects that have nothing to do with Updates and their serials. -/
def Effect.isQuiet : Effect → Bool
  | .transitionMade _ _ => false
  | .updateSucceeded _ => false
  | .serialSignal _ => false
  | .updateParsed _ _ => false
  | .updateReplied _ _ => false
  | _ => true

/-- What an iteration does to the serials and to the dynamic servers. -/
inductive SerialChange (ctx : Context) (event : FsmEvent) (r : ActionResult) : Prop where
  | takeover (hs : isTakeover ctx.currentState event = true)
      (hreq : r.ctx.requestedConfigurationSerial = nextSerial ctx.requestedConfigurationSerial)
      (hcur : r.ctx.currentConfigurationSerial = ctx.currentConfigurationSerial)
      (hdyn : r.ctx.currentDynamicServers = ctx.newDynamicServers)
      (hstate : r.ctx.currentState ≠ .running ∧ r.ctx.currentState ≠ .updatingDnsManager)
      (hquiet : ∀ e ∈ r.effects, e.isQuiet = true)
  | kickoff (hs : isKickoff ctx.currentState event = true)
      (hreq : r.ctx.requestedConfigurationSerial = nextSerial ctx.requestedConfigurationSerial)
      (hcur : r.ctx.currentConfigurationSerial = ctx.currentConfigurationSerial)
      (hdyn : r.ctx.currentDynamicServers = ctx.currentDynamicServers)
      (hstate : r.ctx.currentState = .configuringDnsManager)
      (hquiet : ∀ e ∈ r.effects, e.isQuiet = true)
  | applied {commands : List Effect} (hs : ctx.currentState = .settingResolvConf)
      (hevent : r.event = .success)
      (hreq : r.ctx.requestedConfigurationSerial = ctx.requestedConfigurationSerial)
      (hcur : r.ctx.currentConfigurationSerial = ctx.requestedConfigurationSerial)
      (hdyn : r.ctx.currentDynamicServers = ctx.currentDynamicServers)
      (hstate : r.ctx.currentState = .updatingDnsManager)
      (hquiet : ∀ e ∈ commands, e.isQuiet = true)
      (heffects : r.effects = commands ++ [.updateSucceeded ctx.currentDynamicServers,
        .notified "READY=1\n", .serialSignal ctx.requestedConfigurationSerial])
  | quiet (hs : isAdvance ctx.currentState event = false)
      (hreq : r.ctx.requestedConfigurationSerial = ctx.requestedConfigurationSerial)
      (hcur : r.ctx.currentConfigurationSerial = ctx.currentConfigurationSerial)
      (hdyn : r.ctx.currentDynamicServers = ctx.currentDynamicServers)
      (hrunning : r.ctx.currentState = .running →
        ctx.currentState = .updatingDnsManager ∧ event = .success)
      (hupdating : r.ctx.currentState = .updatingDnsManager → r.event ≠ .success)
      (hquiet : ∀ e ∈ r.effects, e.isQuiet = true)

section Quiet

variable {p : Platform} {config : Config}

lemma isQuiet_of_mem_kickoff {o : KickoffOutcome} {ctx : Context} {e : Effect}
    (he : e ∈ (fsmStartingEventKickoff p config o ctx).effects) : e.isQuiet = true := by
  rcases fsmStartingEventKickoff_cases p config o ctx with ⟨ca, -, heff⟩ | ⟨-, hall⟩
  · rw [heff] at he
    simp only [List.mem_cons, List.not_mem_nil, or_false] at he
    rcases he with rfl | rfl <;> rfl
  · rw [hall e he]
    rfl

lemma isQuiet_of_mem_setServiceStatus {expectedStatus command : String} {o : ServiceOutcome}
    {ctx : Context} {e : Effect}
    (he : e ∈ (setServiceStatus expectedStatus command o ctx).effects) : e.isQuiet = true := by
  rcases mem_setServiceStatus_effects he with rfl | rfl <;> rfl

lemma isQuiet_of_mem_setResolvConf {o : ResolvConfOutcome} {ctx : Context} {e : Effect}
    (he : e ∈ (setResolvConf p config o ctx).effects) : e.isQuiet = true := by
  rcases mem_setResolvConf_effects he with rfl | ⟨text, rfl⟩ | ⟨rfl, -⟩ <;> rfl

lemma isQuiet_of_mem_revertResolvConf {o : RevertOutcome} {ctx : Context} {e : Effect}
    (he : e ∈ (revertResolvConf o ctx).effects) : e.isQuiet = true := by
  obtain ⟨rest, heff, hrest⟩ := revertResolvConf_effects o ctx
  rw [heff] at he
  rcases List.mem_cons.mp he with rfl | he
  · rfl
  · rcases hrest e he with ⟨text, rfl, -⟩ | ⟨rfl, -⟩ <;> rfl

lemma isQuiet_of_mem_update {o : UpdateOutcome} {ctx : Context} {e : Effect}
    (he : e ∈ (update p config o ctx).2) : e.isQuiet = true := by
  rcases mem_update_effects he with ⟨command, ok, rfl⟩ | ⟨rfl, -⟩ | ⟨rfl, -⟩ <;> rfl

/-- Every iteration changes the serials in one of these ways. -/
theorem Edge.serialChange {o : Outcomes} {ctx : Context} {event : FsmEvent} {r : ActionResult}
    (h : Edge p config o ctx event r) : SerialChange ctx event r := by
  cases h with
  | refresh hs =>
    refine .takeover ?_ rfl rfl rfl ?_ (by simp)
    · rcases hs with hs | hs <;> rw [hs] <;> rfl
    · rcases hs with hs | hs <;> simp [updateContext, setDynamicServers, hs]
  | kickoff hs hn =>
    refine .kickoff hs (by simp [updateContext]) (by simp [updateContext])
      (by simp [updateContext]) rfl ?_
    intro e he
    rcases List.mem_append.mp he with he | he
    · rcases hn with rfl | rfl
      · simp at he
      · rw [List.mem_singleton.mp he]; rfl
    · exact isQuiet_of_mem_kickoff he
  | ignored hs =>
    refine .quiet ?_ rfl rfl rfl ?_ ?_ (by simp)
    · revert hs
      cases ctx.currentState <;> cases event <;> simp [isIgnored, isAdvance, isTakeover, isKickoff]
    · revert hs
      cases ctx.currentState <;> cases event <;> simp [isIgnored]
    · simp
  | abandon hs =>
    refine .quiet ?_ rfl rfl rfl (by simp) (by simp) (by simp)
    revert hs
    cases ctx.currentState <;> cases event <;> simp [isAbandon, isAdvance, isTakeover, isKickoff]
  | startJob hs =>
    refine .quiet ?_ ?_ ?_ ?_ ?_ ?_ fun e he => isQuiet_of_mem_setServiceStatus he <;>
      simp [ActionResult.enter, hs, isAdvance, isTakeover, isKickoff]
  | startJobSubmitted hs =>
    refine .quiet ?_ rfl rfl rfl (by simp) (by simp) (by simp)
    rw [hs]; rfl
  | startJobDone hs =>
    refine .quiet ?_ ?_ ?_ ?_ (by simp) (by simp) ?_
    · rw [hs]; rfl
    · simp
    · simp
    · simp
    · intro e he
      rcases List.mem_cons.mp he with rfl | he
      · rfl
      · exact isQuiet_of_mem_setResolvConf he
  | startJobFailed hs =>
    refine .quiet ?_ ?_ ?_ ?_ (by simp) (by simp) (by simp)
    · rw [hs]; rfl
    all_goals simp [setExitCode_eq]
  | updateRunning hs =>
    refine .takeover ?_ ?_ ?_ ?_ ?_ fun e he => isQuiet_of_mem_setResolvConf he
    · rw [hs]; rfl
    all_goals simp [ActionResult.enter, updateContext, setDynamicServers]
  | resolvConfSet hs =>
    rcases updateDnsManager_cases p config o.update ctx with
      ⟨result, effects, hupdate, heq⟩ | ⟨effects, event, hevent, heff, heq⟩
    · rw [heq]
      refine .applied hs rfl rfl rfl rfl rfl ?_ rfl
      intro e he
      have hmem : e ∈ (update p config o.update ctx).2 := by rw [hupdate]; exact he
      exact isQuiet_of_mem_update hmem
    · rw [heq]
      refine .quiet ?_ rfl rfl rfl (by simp [ActionResult.enter]) ?_ ?_
      · rw [hs]; rfl
      · rcases hevent with rfl | rfl <;> simp [ActionResult.enter]
      · intro e he
        rw [heff] at he
        exact isQuiet_of_mem_update he
  | resolvConfFailed hs =>
    refine .quiet ?_ ?_ ?_ ?_ ?_ ?_ fun e he => isQuiet_of_mem_setServiceStatus he <;>
      simp [ActionResult.enter, submitStopJob, setExitCode_eq, hs, isAdvance, isTakeover,
        isKickoff]
  | updated hs => exact .quiet (by rw [hs]; rfl) rfl rfl rfl (fun _ => ⟨hs, rfl⟩) (by simp) (by simp)
  | updateFailed hs =>
    refine .quiet ?_ ?_ ?_ ?_ ?_ ?_ fun e he => isQuiet_of_mem_revertResolvConf he <;>
      simp [ActionResult.enter, setExitCode_eq, hs, isAdvance, isTakeover, isKickoff]
  | stopRunning hs =>
    refine .quiet ?_ ?_ ?_ ?_ ?_ ?_ fun e he => isQuiet_of_mem_revertResolvConf he <;>
      simp [ActionResult.enter, hs, isAdvance, isTakeover, isKickoff]
  | stopJob hs =>
    refine .quiet ?_ ?_ ?_ ?_ ?_ ?_ fun e he => isQuiet_of_mem_setServiceStatus he
    · revert hs
      cases ctx.currentState <;> cases event <;>
        simp [isStopJob, isAdvance, isTakeover, isKickoff]
    all_goals simp [ActionResult.enter, submitStopJob]
  | stopJobSubmitted hs =>
    refine .quiet ?_ rfl rfl rfl (by simp) (by simp) (by simp)
    rw [hs]; rfl
  | quit hs =>
    refine .quiet ?_ rfl rfl rfl (by simp [hs]) (by simp) (by simp [Effect.isQuiet])
    rw [hs]; rfl

end Quiet

end Dnsconfd
