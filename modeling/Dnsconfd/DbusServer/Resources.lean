import Dnsconfd.DbusServer.ServersWellFormed
import Dnsconfd.Fsm.Effects

/-!
# Resources that are used without a check

`update`, `write_resolv_conf` and `revert_resolv_conf` use the table of servers, the effective CA
and the backup of resolv.conf without asking whether they are set.  That they are follows from the
states that can precede a use: `isConfigured` holds where a kickoff has succeeded, `isBackedUp`
where resolv.conf has been written.

The backup is taken in the step in which resolv.conf is first opened for writing, from the content
that is found there (`FirstWrite`), and nothing replaces it afterwards.  It is kept as a C string,
so content behind a NUL is lost.
-/

namespace Dnsconfd

open Library

variable {p : Platform} {config : Config}

/-! ## Where resources are set -/

/-- A kickoff has succeeded: there are a table of servers and an effective CA. -/
def isConfigured : FsmState → FsmEvent → Bool
  | .configuringDnsManager, .success => true
  | .submittingStartJob, _ => true
  | .waitingForStartJob, _ => true
  | .settingResolvConf, _ => true
  | .updatingDnsManager, _ => true
  | .running, _ => true
  | _, _ => false

/-- resolv.conf has been written: there is a backup. -/
def isBackedUp : FsmState → FsmEvent → Bool
  | .settingResolvConf, .success => true
  | .updatingDnsManager, _ => true
  | .running, _ => true
  | _, _ => false

/-- The way to the stop, from where resolv.conf is never written again. -/
def isGivenUp : FsmState → FsmEvent → Bool
  | .settingResolvConf, .failure => true
  | .submittingStopJob, _ => true
  | .waitingStopJob, _ => true
  | .stopping, _ => true
  | _, _ => false

/-! ## What an iteration does to the resources -/

/-- After a kickoff that succeeds there is an effective CA. -/
lemma caAfterKickoff_isSome {o : KickoffOutcome} {ctx : Context}
    (h : (fsmStartingEventKickoff p config o ctx).event = .success) :
    (caAfterKickoff p config o ctx).isSome = true := by
  have hctx := fsmStartingEventKickoff_ctx p config o ctx
  have hca : (fsmStartingEventKickoff p config o ctx).ctx.effectiveCa =
      caAfterKickoff p config o ctx := by rw [hctx]
  rw [← hca]
  unfold fsmStartingEventKickoff at h ⊢
  split at h
  · cases h
  · rename_i hmonitor
    rcases writeConfiguration_cases p config o (updateContext p config ctx) with
      ⟨ca, -, hr⟩ | ⟨herror, -⟩
    · simp [hmonitor, hr]
    · simp [herror] at h

/-- No edge unsets the effective CA. -/
lemma Edge.effectiveCa_isSome {o : Outcomes} {ctx : Context} {event : FsmEvent} {r : ActionResult}
    (hedge : Edge p config o ctx event r) (h : ctx.effectiveCa.isSome = true) :
    r.ctx.effectiveCa.isSome = true := by
  cases hedge with
  | kickoff hs hn =>
    rw [fsmStartingEventKickoff_ctx]
    simp only [caAfterKickoff]
    split
    · simp [h]
    · exact h
  | resolvConfSet hs =>
    rcases updateDnsManager_cases p config o.update ctx with ⟨_, _, -, hr⟩ | ⟨_, _, -, -, hr⟩ <;>
      rw [hr] <;> exact h
  | _ => simpa [ActionResult.enter, submitStopJob, setExitCode_eq, updateContext, setDynamicServers]
      using h

/-- The backup is taken by an iteration that writes resolv.conf, if there was none; nothing else
changes it. -/
lemma Edge.resolvConfBackup {o : Outcomes} {ctx : Context} {event : FsmEvent} {r : ActionResult}
    (hedge : Edge p config o ctx event r) :
    r.ctx.resolvConfBackup = ctx.resolvConfBackup ∨
      (isWrite ctx.currentState event = true ∧
        r.ctx.resolvConfBackup = backupAfterWrite o.resolvConf ctx) := by
  cases hedge with
  | startJobDone hs =>
    refine Or.inr ⟨by rw [hs]; rfl, ?_⟩
    rw [setResolvConf_ctx]
  | updateRunning hs =>
    refine Or.inr ⟨by rw [hs]; rfl, ?_⟩
    rw [ActionResult.enter, setResolvConf_ctx]
    rfl
  | resolvConfSet hs =>
    rcases updateDnsManager_cases p config o.update ctx with ⟨_, _, -, hr⟩ | ⟨_, _, -, -, hr⟩ <;>
      rw [hr] <;> exact Or.inl rfl
  | _ =>
    exact Or.inl (by
      simp [ActionResult.enter, submitStopJob, setExitCode_eq, updateContext, setDynamicServers])

/-- A backup stays as it is. -/
lemma Edge.resolvConfBackup_eq {o : Outcomes} {ctx : Context} {event : FsmEvent}
    {r : ActionResult} (hedge : Edge p config o ctx event r) {backup : String}
    (h : ctx.resolvConfBackup = some backup) : r.ctx.resolvConfBackup = some backup := by
  rcases hedge.resolvConfBackup with heq | ⟨-, heq⟩
  · rw [heq, h]
  · rw [heq, backupAfterWrite, h, Option.some_or]

/-- What the context has set, by state and event. -/
structure Provided (ctx : Context) (event : FsmEvent) : Prop where
  table : isConfigured ctx.currentState event = true → ctx.currentDomainToServers.isSome = true
  ca : isConfigured ctx.currentState event = true → ctx.effectiveCa.isSome = true
  backup : isBackedUp ctx.currentState event = true → ctx.resolvConfBackup.isSome = true

/-- With well-formed servers no edge unsets the table. -/
lemma Edge.table_isSome (hstatic : ∀ s ∈ config.staticServers, s.WellFormed) {o : Outcomes}
    {ctx : Context} {event : FsmEvent} {r : ActionResult} (hedge : Edge p config o ctx event r)
    (hservers : HoldsWellFormed p ctx.serverFields)
    (h : ctx.currentDomainToServers.isSome = true) :
    r.ctx.currentDomainToServers.isSome = true := by
  have htable : ∀ ctx' : Context, r.ctx.serverFields = ctx'.serverFields →
      r.ctx.currentDomainToServers = ctx'.currentDomainToServers :=
    fun ctx' heq => congrArg ServerFields.table heq
  rcases hedge.serverFields with heq | heq | heq
  · rw [htable _ heq]
    exact h
  · rw [htable _ heq]
    exact hservers.updateContext_isSome hstatic
  · rw [htable _ heq]
    exact hservers.setDynamicServers.updateContext_isSome hstatic

/-- A state after which the resources of a kickoff are needed is entered from such a state or by a
kickoff that succeeds. -/
lemma Edge.isConfigured_cases {o : Outcomes} {ctx : Context} {event : FsmEvent} {r : ActionResult}
    (hedge : Edge p config o ctx event r) (h : isConfigured r.ctx.currentState r.event = true) :
    isConfigured ctx.currentState event = true ∨
      (r.ctx.currentDomainToServers = (updateContext p config ctx).currentDomainToServers ∧
        r.ctx.effectiveCa.isSome = true) := by
  cases hedge with
  | kickoff hs hn =>
    have hsuccess : (fsmStartingEventKickoff p config o.kickoff ctx).event = .success := by
      rcases fsmStartingEventKickoff_event p config o.kickoff ctx with he | he
      · exact he
      · rw [he] at h
        cases h
    refine Or.inr ⟨?_, ?_⟩
    · rw [fsmStartingEventKickoff_ctx]
    · rw [fsmStartingEventKickoff_ctx]
      exact caAfterKickoff_isSome hsuccess
  | refresh hs =>
    rcases hs with hs | hs
    · simp [updateContext, setDynamicServers, hs, isConfigured] at h
    · exact Or.inl (by rw [hs]; rfl)
  | ignored hs =>
    revert hs h
    cases ctx.currentState <;> cases event <;> simp [isIgnored, isConfigured]
  | startJob hs | startJobSubmitted hs | startJobDone hs | updateRunning hs | resolvConfSet hs
  | updated hs => exact Or.inl (by rw [hs]; rfl)
  | quit hs => rw [hs] at h; cases h
  | abandon | startJobFailed | resolvConfFailed | updateFailed | stopRunning | stopJob
  | stopJobSubmitted => cases h

/-- A state after which the backup is needed is entered from such a state or by writing resolv.conf
with success. -/
lemma Edge.isBackedUp_cases {o : Outcomes} {ctx : Context} {event : FsmEvent} {r : ActionResult}
    (hedge : Edge p config o ctx event r) (h : isBackedUp r.ctx.currentState r.event = true) :
    isBackedUp ctx.currentState event = true ∨
      (.resolvConfOpened ∈ r.effects ∧ r.ctx.resolvConfBackup.isSome = true) := by
  have hwritten : ∀ ctx', (setResolvConf p config o.resolvConf ctx').event = .success →
      .resolvConfOpened ∈ (setResolvConf p config o.resolvConf ctx').effects ∧
        (backupAfterWrite o.resolvConf ctx').isSome = true := by
    intro ctx' hsuccess
    obtain ⟨hbackup, hopened⟩ := setResolvConf_opened p config o.resolvConf ctx'
    exact ⟨hopened hsuccess, hbackup (hopened hsuccess)⟩
  have hsuccess : ∀ ctx', isBackedUp .settingResolvConf
      (setResolvConf p config o.resolvConf ctx').event = true →
      (setResolvConf p config o.resolvConf ctx').event = .success := by
    intro ctx' hbacked
    rcases setResolvConf_event p config o.resolvConf ctx' with he | he
    · exact he
    · rw [he] at hbacked
      cases hbacked
  cases hedge with
  | startJobDone hs =>
    obtain ⟨hopened, hbackup⟩ := hwritten ctx (hsuccess ctx h)
    refine Or.inr ⟨List.mem_cons_of_mem _ hopened, ?_⟩
    rw [setResolvConf_ctx]
    exact hbackup
  | updateRunning hs => exact Or.inl (by rw [hs]; rfl)
  | resolvConfSet hs | updated hs => exact Or.inl (by rw [hs]; rfl)
  | refresh hs =>
    rcases hs with hs | hs <;> simp [updateContext, setDynamicServers, hs, isBackedUp] at h
  | ignored hs =>
    revert hs h
    cases ctx.currentState <;> cases event <;> simp [isIgnored, isBackedUp]
  | quit hs => rw [hs] at h; cases h
  | kickoff | abandon | startJob | startJobSubmitted | startJobFailed | resolvConfFailed
  | updateFailed | stopRunning | stopJob | stopJobSubmitted => cases h

/-- Every edge provides what the next state needs. -/
lemma Provided.edge (hstatic : ∀ s ∈ config.staticServers, s.WellFormed) {o : Outcomes}
    {ctx : Context} {event : FsmEvent} {r : ActionResult} (hedge : Edge p config o ctx event r)
    (hservers : HoldsWellFormed p ctx.serverFields) (h : Provided ctx event) :
    Provided r.ctx r.event where
  table := by
    intro hr
    rcases hedge.isConfigured_cases hr with hctx | ⟨htable, -⟩
    · exact hedge.table_isSome hstatic hservers (h.table hctx)
    · rw [htable]
      exact hservers.updateContext_isSome hstatic
  ca := by
    intro hr
    rcases hedge.isConfigured_cases hr with hctx | ⟨-, hca⟩
    · exact hedge.effectiveCa_isSome (h.ca hctx)
    · exact hca
  backup := by
    intro hr
    rcases hedge.isBackedUp_cases hr with hctx | ⟨-, hbackup⟩
    · obtain ⟨backup, hb⟩ := Option.isSome_iff_exists.mp (h.backup hctx)
      rw [hedge.resolvConfBackup_eq hb]
      rfl
    · exact hbackup

/-! ## What the log says -/

/-- Effects that neither open nor restore resolv.conf and do not note an unset resource. -/
def Effect.isPlain : Effect → Bool
  | .resolvConfOpened => false
  | .resolvConfRestored _ => false
  | .nullUse _ => false
  | _ => true

/-- No unset resource has been used; resolv.conf was opened only with a backup at hand, and what
was restored is this backup. -/
structure ResourceLog (backup : Option String) (log : List Effect) : Prop where
  noNullUse : ∀ resource, .nullUse resource ∉ log
  opened : .resolvConfOpened ∈ log → backup.isSome = true
  restored : ∀ text, .resolvConfRestored text ∈ log → backup = some text ∧ .resolvConfOpened ∈ log

/-- Further effects; the backup may be taken but not replaced. -/
lemma ResourceLog.append {backup backup' : Option String} {log l : List Effect}
    (h : ResourceLog backup log) (hkept : ∀ text, backup = some text → backup' = some text)
    (hl : ∀ e ∈ l, e.isPlain = true ∨ (e = .resolvConfOpened ∧ backup'.isSome = true) ∨
      ∃ text, e = .resolvConfRestored text ∧ backup' = some text ∧ .resolvConfOpened ∈ log) :
    ResourceLog backup' (log ++ l) where
  noNullUse := by
    intro resource hmem
    rcases List.mem_append.mp hmem with hmem | hmem
    · exact h.noNullUse resource hmem
    · rcases hl _ hmem with hplain | ⟨heq, -⟩ | ⟨text, heq, -⟩
      · cases hplain
      · cases heq
      · cases heq
  opened := by
    intro hmem
    rcases List.mem_append.mp hmem with hmem | hmem
    · obtain ⟨text, htext⟩ := Option.isSome_iff_exists.mp (h.opened hmem)
      rw [hkept text htext]
      rfl
    · rcases hl _ hmem with hplain | ⟨-, hbackup⟩ | ⟨text, heq, -⟩
      · cases hplain
      · exact hbackup
      · cases heq
  restored := by
    intro text hmem
    rcases List.mem_append.mp hmem with hmem | hmem
    · obtain ⟨hbackup, hopened⟩ := h.restored text hmem
      exact ⟨hkept text hbackup, List.mem_append_left _ hopened⟩
    · rcases hl _ hmem with hplain | ⟨heq, -⟩ | ⟨text', heq, hbackup, hopened⟩
      · cases hplain
      · cases heq
      · obtain rfl := Effect.resolvConfRestored.inj heq
        exact ⟨hbackup, List.mem_append_left _ hopened⟩

/-- Effects of an iteration whose resources are set: only iterations that write resolv.conf open
it, with a backup at hand, and only those that revert it restore it, to the backup. -/
lemma Edge.mem_effects (hstatic : ∀ s ∈ config.staticServers, s.WellFormed) {o : Outcomes}
    {ctx : Context} {event : FsmEvent} {r : ActionResult} (hedge : Edge p config o ctx event r)
    (hservers : HoldsWellFormed p ctx.serverFields) (h : Provided ctx event) {e : Effect}
    (he : e ∈ r.effects) :
    e.isPlain = true ∨
      (e = .resolvConfOpened ∧ isWrite ctx.currentState event = true ∧
        r.ctx.resolvConfBackup.isSome = true) ∨
      ∃ text, e = .resolvConfRestored text ∧ isRevert ctx.currentState event = true ∧
        ctx.resolvConfBackup = some text := by
  have hservice : ∀ {expected command : String} {o : ServiceOutcome} {ctx : Context},
      e ∈ (setServiceStatus expected command o ctx).effects → e.isPlain = true := by
    intro expected command o ctx he
    rcases mem_setServiceStatus_effects he with rfl | rfl <;> rfl
  have hwrite : ∀ ctx', ctx'.currentDomainToServers.isSome = true →
      e ∈ (setResolvConf p config o.resolvConf ctx').effects →
      e.isPlain = true ∨ (e = .resolvConfOpened ∧
        (backupAfterWrite o.resolvConf ctx').isSome = true) := by
    intro ctx' htable he
    rcases mem_setResolvConf_effects he with rfl | ⟨text, rfl⟩ | ⟨-, hnone⟩
    · exact Or.inr ⟨rfl, (setResolvConf_opened p config o.resolvConf ctx').1 he⟩
    · exact Or.inl rfl
    · rw [hnone] at htable
      cases htable
  have hrevert : ∀ ctx' : Context, ctx'.resolvConfBackup = ctx.resolvConfBackup →
      isRevert ctx.currentState event = true →
      e ∈ (revertResolvConf o.revert ctx').effects → e.isPlain = true ∨
        ∃ text, e = .resolvConfRestored text ∧ isRevert ctx.currentState event = true ∧
          ctx.resolvConfBackup = some text := by
    intro ctx' hbackup hs he
    have hset : ctx.resolvConfBackup.isSome = true := by
      apply h.backup
      revert hs
      cases ctx.currentState <;> cases event <;> simp [isRevert, isBackedUp]
    obtain ⟨rest, heffects, hrest⟩ := revertResolvConf_effects o.revert ctx'
    rw [heffects] at he
    rcases List.mem_cons.mp he with rfl | he
    · exact Or.inl rfl
    · rcases hrest e he with ⟨text, rfl, htext⟩ | ⟨-, hnone⟩
      · exact Or.inr ⟨text, rfl, hs, hbackup ▸ htext⟩
      · rw [← hbackup, hnone] at hset
        cases hset
  cases hedge with
  | kickoff hs hn =>
    refine Or.inl ?_
    rcases List.mem_append.mp he with he | he
    · rcases hn with rfl | rfl
      · cases he
      · rw [List.mem_singleton.mp he]
        rfl
    · rcases fsmStartingEventKickoff_cases p config o.kickoff ctx with ⟨ca, -, heq⟩ | ⟨-, hall⟩
      · rw [heq] at he
        simp only [List.mem_cons, List.not_mem_nil, or_false] at he
        rcases he with rfl | rfl <;> rfl
      · rw [hall e he]
        rfl
  | startJobDone hs =>
    rcases List.mem_cons.mp he with rfl | he
    · exact Or.inl rfl
    · rcases hwrite ctx (h.table (by rw [hs]; rfl)) he with hplain | ⟨rfl, hbackup⟩
      · exact Or.inl hplain
      · refine Or.inr (Or.inl ⟨rfl, by rw [hs]; rfl, ?_⟩)
        rw [setResolvConf_ctx]
        exact hbackup
  | updateRunning hs =>
    have htable := hservers.setDynamicServers.updateContext_isSome hstatic
    rcases hwrite _ htable he with hplain | ⟨rfl, hbackup⟩
    · exact Or.inl hplain
    · refine Or.inr (Or.inl ⟨rfl, by rw [hs]; rfl, ?_⟩)
      rw [ActionResult.enter, setResolvConf_ctx]
      exact hbackup
  | resolvConfSet hs =>
    have htable := h.table (by rw [hs]; rfl)
    have hca := h.ca (by rw [hs]; rfl)
    have hupdate : e ∈ (update p config o.update ctx).2 → e.isPlain = true := by
      intro he
      rcases mem_update_effects he with ⟨command, ok, rfl⟩ | ⟨-, hnone⟩ | ⟨-, hnone⟩
      · rfl
      · rw [hnone] at htable
        cases htable
      · rw [hnone] at hca
        cases hca
    refine Or.inl ?_
    rcases updateDnsManager_cases p config o.update ctx with ⟨_, effects, hdone, hr⟩ |
      ⟨_, _, -, rfl, hr⟩
    · rw [ActionResult.enter, hr] at he
      rcases List.mem_append.mp he with he | he
      · exact hupdate (by rw [hdone]; exact he)
      · simp only [List.mem_cons, List.not_mem_nil, or_false] at he
        rcases he with rfl | rfl | rfl <;> rfl
    · rw [ActionResult.enter, hr] at he
      exact hupdate he
  | updateFailed hs =>
    rcases hrevert _ (by rw [setExitCode_eq]) (by rw [hs]; rfl) he with hplain | hrestored
    · exact Or.inl hplain
    · exact Or.inr (Or.inr hrestored)
  | stopRunning hs =>
    rcases hrevert ctx rfl (by rw [hs]; rfl) he with hplain | hrestored
    · exact Or.inl hplain
    · exact Or.inr (Or.inr hrestored)
  | startJob hs | resolvConfFailed hs | stopJob hs => exact Or.inl (hservice he)
  | quit hs =>
    rw [List.mem_singleton.mp he]
    exact Or.inl rfl
  | refresh | ignored | abandon | startJobSubmitted | startJobFailed | updated
  | stopJobSubmitted => cases he

/-! ## The invariant -/

/-- The invariant: servers are well formed, resources are set where they are needed, the log tells
of no misuse, and a backup of a file that was not opened is only there on the way to the stop. -/
structure Backed (p : Platform) (m : Machine) : Prop where
  servers : HoldsWellFormed p m.ctx.serverFields
  provided : Provided m.ctx m.event
  log : ResourceLog m.ctx.resolvConfBackup m.log
  written : isBackedUp m.ctx.currentState m.event = true → .resolvConfOpened ∈ m.log
  unopened : .resolvConfOpened ∉ m.log →
    m.ctx.resolvConfBackup = none ∨ isGivenUp m.ctx.currentState m.event = true

/-- A file that has not been opened is opened only if there is no backup. -/
lemma Backed.backup_eq_none {ctx : Context} {event : FsmEvent} {log : List Effect}
    (h : Backed p ⟨ctx, event, log⟩)
    (hwrite : isWrite ctx.currentState event = true) (hlog : .resolvConfOpened ∉ log) :
    ctx.resolvConfBackup = none := by
  rcases h.unopened hlog with hnone | hgiven
  · exact hnone
  · exfalso
    change isGivenUp ctx.currentState event = true at hgiven
    revert hwrite hgiven
    cases ctx.currentState <;> cases event <;> simp [isWrite, isGivenUp]

/-- On the way to the stop the machine stays there. -/
lemma Edge.isGivenUp {o : Outcomes} {ctx : Context} {event : FsmEvent} {r : ActionResult}
    (hedge : Edge p config o ctx event r) (h : isGivenUp ctx.currentState event = true) :
    isGivenUp r.ctx.currentState r.event = true := by
  cases hedge with
  | ignored hs =>
    revert hs h
    cases ctx.currentState <;> cases event <;> simp [isIgnored, Dnsconfd.isGivenUp]
  | quit hs =>
    change Dnsconfd.isGivenUp ctx.currentState .none = true
    rw [hs]
    rfl
  | abandon | startJobFailed | resolvConfFailed | stopJob | stopJobSubmitted => rfl
  | kickoff hs hn =>
    revert hs h
    cases ctx.currentState <;> cases event <;> simp [isKickoff, Dnsconfd.isGivenUp]
  | refresh hs => rcases hs with hs | hs <;> rw [hs] at h <;> cases h
  | startJob hs | startJobSubmitted hs | startJobDone hs | updateRunning hs | resolvConfSet hs
  | updated hs | updateFailed hs | stopRunning hs =>
    rw [hs] at h
    cases h

/-- An iteration that writes resolv.conf and does not open it fails. -/
lemma Edge.isGivenUp_of_isWrite {o : Outcomes} {ctx : Context} {event : FsmEvent}
    {r : ActionResult} (hedge : Edge p config o ctx event r)
    (hwrite : isWrite ctx.currentState event = true) (h : .resolvConfOpened ∉ r.effects) :
    Dnsconfd.isGivenUp r.ctx.currentState r.event = true := by
  obtain ⟨ctx', n, -, -, rfl⟩ := hedge.write_or.resolve_right (by simp [hwrite])
  have hnot : .resolvConfOpened ∉ (setResolvConf p config o.resolvConf ctx').effects :=
    fun hmem => h (List.mem_append_right _ hmem)
  have hfails : (setResolvConf p config o.resolvConf ctx').event = .failure := by
    rcases setResolvConf_event p config o.resolvConf ctx' with he | he
    · exact absurd ((setResolvConf_opened p config o.resolvConf ctx').2 he) hnot
    · exact he
  rw [hfails]
  rfl

/-- The invariant is preserved by every iteration. -/
lemma Backed.edge (hstatic : ∀ s ∈ config.staticServers, s.WellFormed) {o : Outcomes}
    {ctx : Context} {event : FsmEvent} {log : List Effect} {r : ActionResult} (h : Backed p ⟨ctx, event, log⟩)
    (hedge : Edge p config o ctx event r) :
    Backed p ⟨r.ctx, r.event,
      log ++ .transitionMade ctx.currentState event :: r.effects⟩ where
  servers := h.servers.edge hstatic hedge
  provided := h.provided.edge hstatic hedge h.servers
  log := by
    refine h.log.append (fun text htext => hedge.resolvConfBackup_eq htext) fun e he => ?_
    rcases List.mem_cons.mp he with rfl | he
    · exact Or.inl rfl
    rcases hedge.mem_effects hstatic h.servers h.provided he with hplain | ⟨rfl, -, hbackup⟩ |
      ⟨text, rfl, hrevert, hbackup⟩
    · exact Or.inl hplain
    · exact Or.inr (Or.inl ⟨rfl, hbackup⟩)
    · refine Or.inr (Or.inr ⟨text, rfl, hedge.resolvConfBackup_eq hbackup, h.written ?_⟩)
      change isBackedUp ctx.currentState event = true
      revert hrevert
      cases ctx.currentState <;> cases event <;> simp [isRevert, isBackedUp]
  written := by
    intro hr
    rcases hedge.isBackedUp_cases hr with hctx | ⟨hopened, -⟩
    · exact List.mem_append_left _ (h.written hctx)
    · exact List.mem_append_right _ (List.mem_cons_of_mem _ hopened)
  unopened := by
    intro hnot
    have hlog : .resolvConfOpened ∉ log := fun hmem => hnot (List.mem_append_left _ hmem)
    have heffects : .resolvConfOpened ∉ r.effects := fun hmem =>
      hnot (List.mem_append_right _ (List.mem_cons_of_mem _ hmem))
    rcases hedge.resolvConfBackup with heq | ⟨hwrite, -⟩
    · rcases h.unopened hlog with hnone | hgiven
      · exact Or.inl (heq.trans hnone)
      · exact Or.inr (hedge.isGivenUp hgiven)
    · exact Or.inr (hedge.isGivenUp_of_isWrite hwrite heffects)

/-- An event from outside changes nothing about what is set. -/
lemma Backed.receive {ctx : Context} {event : FsmEvent} {log : List Effect}
    (h : Backed p ⟨ctx, .none, log⟩) (he : event.isExternal = true) :
    Backed p ⟨ctx, event, log⟩ := by
  have hconfigured : isConfigured ctx.currentState event = true →
      isConfigured ctx.currentState .none = true := by
    revert he
    cases ctx.currentState <;> cases event <;> simp [isConfigured, FsmEvent.isExternal]
  have hbacked : isBackedUp ctx.currentState event = true →
      isBackedUp ctx.currentState .none = true := by
    revert he
    cases ctx.currentState <;> cases event <;> simp [isBackedUp, FsmEvent.isExternal]
  have hgiven : isGivenUp ctx.currentState .none = true →
      isGivenUp ctx.currentState event = true := by
    cases ctx.currentState <;> cases event <;> simp [isGivenUp]
  exact ⟨h.servers, ⟨fun hc => h.provided.table (hconfigured hc),
    fun hc => h.provided.ca (hconfigured hc), fun hb => h.provided.backup (hbacked hb)⟩, h.log,
    fun hb => h.written (hbacked hb), fun hlog => (h.unopened hlog).imp_right hgiven⟩

/-- Plain effects may be added to the log. -/
lemma Backed.append_plain {ctx : Context} {event : FsmEvent} {log l : List Effect}
    (h : Backed p ⟨ctx, event, log⟩) (hl : ∀ e ∈ l, e.isPlain = true) :
    Backed p ⟨ctx, event, log ++ l⟩ where
  servers := h.servers
  provided := h.provided
  log := h.log.append (fun _ htext => htext) fun e he => Or.inl (hl e he)
  written hb := List.mem_append_left _ (h.written hb)
  unopened hlog := h.unopened fun hmem => hlog (List.mem_append_left _ hmem)

/-- The servers of an Update call. -/
lemma Backed.update {ctx : Context} {log : List Effect} (h : Backed p ⟨ctx, .none, log⟩)
    {servers : List ServerUri} (mode : Mode) (hservers : ∀ s ∈ servers, s.WellFormed) :
    Backed p ⟨{ ctx with newDynamicServers := servers, resolutionMode := mode }, .update,
      log ++ [.updateParsed servers mode]⟩ := by
  have hplain : ∀ e ∈ [Effect.updateParsed servers mode], e.isPlain = true := by simp [Effect.isPlain]
  have hreceived : Backed p ⟨ctx, .update, log⟩ := h.receive rfl
  have hupdate := hreceived.append_plain hplain
  exact ⟨⟨h.servers.current, hservers, h.servers.all, h.servers.table⟩,
    ⟨hupdate.provided.table, hupdate.provided.ca, hupdate.provided.backup⟩, hupdate.log,
    hupdate.written, hupdate.unopened⟩

/-- An event that is refused is dropped; the exit code does not matter. -/
lemma Backed.drop {o : Outcomes} {ctx : Context} {event : FsmEvent} {log : List Effect}
    (h : Backed p ⟨ctx, event, log⟩) (hrefused : transitionAction p config o ctx event = none)
    (code : ExitCode) : Backed p ⟨{ ctx with exitCode := code }, .none, log⟩ := by
  have hconfigured : isConfigured ctx.currentState .none = true →
      isConfigured ctx.currentState event = true := by
    cases ctx.currentState <;> cases event <;> simp [isConfigured]
  have hbacked : isBackedUp ctx.currentState .none = true →
      isBackedUp ctx.currentState event = true := by
    cases ctx.currentState <;> cases event <;> simp [isBackedUp]
  have hgiven : isGivenUp ctx.currentState event = true →
      isGivenUp ctx.currentState .none = true := by
    intro hg
    by_cases hexpected : isExpected ctx.currentState event = true
    · exact absurd hrefused (transitionAction_ne_none_of_isExpected hexpected)
    · revert hg hexpected
      cases ctx.currentState <;> cases event <;> simp [isGivenUp, isExpected]
  exact ⟨h.servers, ⟨fun hc => h.provided.table (hconfigured hc),
    fun hc => h.provided.ca (hconfigured hc), fun hb => h.provided.backup (hbacked hb)⟩, h.log,
    fun hb => h.written (hbacked hb), fun hlog => (h.unopened hlog).imp_right hgiven⟩

/-- The invariant is preserved by every small step. -/
lemma Backed.micro (hstatic : ∀ s ∈ config.staticServers, s.WellFormed) {a b : Moment}
    (h : Backed p a.toMachine) (hstep : Micro p config (Backed p) a b) : Backed p b.toMachine := by
  cases hstep with
  | parsed servers mode hok => exact hok
  | edge hok hedge => exact h.edge hstatic hedge
  | receive he hu => exact h.receive he
  | refused hrefused => exact (h.drop hrefused _).append_plain (by simp [Effect.isPlain])
  | skipped hrefused => exact h.drop hrefused _
  | replied | rejected | reloadReplied => exact h.append_plain (by simp [Effect.isPlain])
  | nameLost =>
    have hquit := h.append_plain (l := [.mainLoopQuit]) (by simp [Effect.isPlain])
    exact ⟨hquit.servers, ⟨hquit.provided.table, hquit.provided.ca, hquit.provided.backup⟩,
      hquit.log, hquit.written, hquit.unopened⟩

lemma Backed.iterationsMeet (hstatic : ∀ s ∈ config.staticServers, s.WellFormed) {d : Daemon}
    (h : Backed p d.moment.toMachine) (i : Input) : IterationsMeet p config (Backed p) d i := by
  refine iterationsMeet_of_edge (fun _ _ _ _ _ hm hedge => hm.edge hstatic hedge)
    (fun event he _ => h.receive he) ?_ i
  intro isWireless servers mode parsed mode' hdecode
  exact h.update mode' (wellFormed_decodeUpdateCall hdecode)

/-- The invariant holds in every iteration of a run and between its events. -/
lemma backed_run (hstatic : ∀ s ∈ config.staticServers, s.WellFormed) (is : List Input) :
    RunMeets p config (Backed p) is ∧
      Backed p ((daemon p config).run is).moment.toMachine := by
  refine runMeets_and_invariant (fun d i hd => hd.iterationsMeet hstatic i)
    (fun _ _ ha hstep => ha.micro hstatic hstep) ?_ is
  refine ⟨?_, ⟨?_, ?_, ?_⟩, ⟨?_, ?_, ?_⟩, ?_, ?_⟩
  · constructor <;> simp [Daemon.moment, Daemon.initial, Context.initial, Context.serverFields]
  all_goals simp [Daemon.moment, Daemon.initial, Context.initial, isConfigured, isBackedUp]

/-- In an iteration every resource that its action uses is set: the CA and the table for `update`,
the table for `write_resolv_conf`, the backup for `revert_resolv_conf`. -/
structure ResourcesSet (p : Platform) (config : Config) (m : Machine) : Prop where
  update : m.ctx.currentState = .settingResolvConf → m.event = .success →
    m.ctx.effectiveCa.isSome = true ∧ m.ctx.currentDomainToServers.isSome = true
  write : m.ctx.currentState = .waitingForStartJob → m.event = .jobSuccess →
    m.ctx.currentDomainToServers.isSome = true
  rewrite : m.ctx.currentState = .running → m.event = .update →
    (updateContext p config (setDynamicServers m.ctx)).currentDomainToServers.isSome = true
  revert : (m.ctx.currentState = .running ∧ m.event = .stop) ∨
      (m.ctx.currentState = .updatingDnsManager ∧ m.event = .failure) →
    m.ctx.resolvConfBackup.isSome = true

lemma Backed.resourcesSet (hstatic : ∀ s ∈ config.staticServers, s.WellFormed) {m : Machine}
    (h : Backed p m) : ResourcesSet p config m where
  update hs he := by
    have hconfigured : isConfigured m.ctx.currentState m.event = true := by rw [hs, he]; rfl
    exact ⟨h.provided.ca hconfigured, h.provided.table hconfigured⟩
  write hs he := h.provided.table (by rw [hs, he]; rfl)
  rewrite _ _ := h.servers.setDynamicServers.updateContext_isSome hstatic
  revert := by
    rintro (⟨hs, he⟩ | ⟨hs, he⟩)
    · exact h.provided.backup (by rw [hs, he]; rfl)
    · exact h.provided.backup (by rw [hs, he]; rfl)

/-! ## The backup and the first write -/

/-- A call of `state_transition` takes the backup from the content it finds, or leaves it. -/
lemma resolvConfBackup_stateTransition (p : Platform) (config : Config) (o : Outcomes)
    (ctx : Context) (event : FsmEvent) (log : List Effect) :
    (stateTransition p config o ctx event log).state.ctx.resolvConfBackup = ctx.resolvConfBackup ∨
      (stateTransition p config o ctx event log).state.ctx.resolvConfBackup =
        backupAfterWrite o.resolvConf ctx := by
  refine stateTransition_invariant (J := fun m => m.ctx.resolvConfBackup = ctx.resolvConfBackup ∨
    m.ctx.resolvConfBackup = backupAfterWrite o.resolvConf ctx) ?_ (Or.inl rfl)
  intro ctx' event' log' r hctx' hedge
  rcases hedge.resolvConfBackup with heq | ⟨-, heq⟩
  · rw [heq]
    exact hctx'
  · rw [heq]
    refine Or.inr ?_
    unfold backupAfterWrite at hctx' ⊢
    rcases hctx' with hctx' | hctx'
    · rw [hctx']
    · rw [hctx', Option.or_assoc, Option.or_self]

/-- So does a step of the daemon. -/
lemma resolvConfBackup_step (p : Platform) (config : Config) (d : Daemon) (i : Input) :
    (d.step p config i).ctx.resolvConfBackup = d.ctx.resolvConfBackup ∨
      (d.step p config i).ctx.resolvConfBackup =
        backupAfterWrite i.outcomes.resolvConf d.ctx := by
  have hdispatch : ∀ (event : FsmEvent) (d : Daemon),
      (dispatch p config i.outcomes event d).ctx.resolvConfBackup =
        (stateTransition p config i.outcomes d.ctx event d.log).state.ctx.resolvConfBackup := by
    intro event d
    unfold dispatch
    dsimp only
    split <;> rfl
  obtain ⟨event, o, isWireless⟩ := i
  cases event with
  | nameLost => exact Or.inl rfl
  | jobFinished result => exact resolvConfBackup_stateTransition p config o d.ctx _ d.log
  | updateCall servers mode =>
    simp only [Daemon.step, handleUpdateCall]
    split
    · exact Or.inl rfl
    · simp only [Daemon.accept, hdispatch]
      exact resolvConfBackup_stateTransition p config o (d.receive _ _).ctx _ _
  | reloadCall | nameAcquired | sigterm =>
    simp only [Daemon.step, handleReloadCall, onNameAcquired, onSigterm, hdispatch]
    exact resolvConfBackup_stateTransition p config o d.ctx _ d.log

/-- A backup stays as it is for the rest of a run. -/
lemma resolvConfBackup_runFrom (p : Platform) (config : Config) {d : Daemon} {backup : String}
    (h : d.ctx.resolvConfBackup = some backup) (is : List Input) :
    ((daemon p config).runFrom d is).ctx.resolvConfBackup = some backup := by
  induction is generalizing d with
  | nil => exact h
  | cons i is ih =>
    refine ih ?_
    rcases resolvConfBackup_step p config d i with heq | heq
    · exact heq.trans h
    · exact heq.trans (by rw [backupAfterWrite, h, Option.some_or])

/-- A run opens resolv.conf for writing for the first time in a step that finds the given
content. -/
def FirstWrite (p : Platform) (config : Config) (is : List Input) (content : String) : Prop :=
  ∃ before i after, is = before ++ i :: after ∧
    .resolvConfOpened ∉ ((daemon p config).run before).log ∧
    .resolvConfOpened ∈ ((daemon p config).run (before ++ [i])).log ∧
    i.outcomes.resolvConf.originalContent = some content

/-- A step that opens resolv.conf for the first time starts without a backup. -/
lemma Backed.backup_eq_none_of_opens (hstatic : ∀ s ∈ config.staticServers, s.WellFormed)
    {d : Daemon} (h : Backed p d.moment.toMachine) (hlog : .resolvConfOpened ∉ d.log) {i : Input}
    (hopened : .resolvConfOpened ∈ (d.step p config i).log) : d.ctx.resolvConfBackup = none := by
  by_contra hbackup
  obtain ⟨backup, hbackup⟩ := Option.ne_none_iff_exists'.mp hbackup
  -- with a backup the file would never be opened
  have hnever : Backed p (d.step p config i).moment.toMachine ∧
      (d.step p config i).ctx.resolvConfBackup = some backup ∧
      .resolvConfOpened ∉ (d.step p config i).log := by
    refine invariant_of_steps (J := fun a => Backed p a.toMachine ∧
      a.ctx.resolvConfBackup = some backup ∧ .resolvConfOpened ∉ a.log) ?_ ⟨h, hbackup, hlog⟩
      (micro_step (h.iterationsMeet hstatic i))
    rintro a b ⟨ha, hab, hal⟩ hstep
    refine ⟨ha.micro hstatic hstep, ?_⟩
    cases hstep with
    | edge hok hedge =>
      refine ⟨hedge.resolvConfBackup_eq hab, fun hmem => ?_⟩
      rcases List.mem_append.mp hmem with hmem | hmem
      · exact hal hmem
      rcases List.mem_cons.mp hmem with heq | hmem
      · cases heq
      rcases hedge.mem_effects hstatic ha.servers ha.provided hmem with hplain | ⟨-, hwrite, -⟩ |
        ⟨text, heq, -⟩
      · cases hplain
      · have hnone := ha.backup_eq_none hwrite hal
        rw [hnone] at hab
        cases hab
      · cases heq
    | receive | skipped => exact ⟨hab, hal⟩
    | parsed | refused | replied | rejected | reloadReplied | nameLost =>
      exact ⟨hab, by simpa using hal⟩
  exact hnever.2.2 hopened

/-- The first step that opens resolv.conf keeps the content it finds. -/
lemma backup_of_opens (hstatic : ∀ s ∈ config.staticServers, s.WellFormed) {before : List Input}
    {i : Input} (hlog : .resolvConfOpened ∉ ((daemon p config).run before).log)
    (hopened : .resolvConfOpened ∈ ((daemon p config).run (before ++ [i])).log) :
    ∃ content, i.outcomes.resolvConf.originalContent = some content ∧
      ((daemon p config).run (before ++ [i])).ctx.resolvConfBackup = some (cString content) := by
  have hbefore := (backed_run (p := p) hstatic before).2
  have hafter := (backed_run (p := p) hstatic (before ++ [i])).2
  have hrun : (daemon p config).run (before ++ [i]) =
      ((daemon p config).run before).step p config i := (daemon p config).run_append before [i]
  have hnone := hbefore.backup_eq_none_of_opens hstatic hlog (hrun ▸ hopened)
  obtain ⟨backup, hbackup⟩ := Option.isSome_iff_exists.mp (hafter.log.opened hopened)
  have hkept : ((daemon p config).run (before ++ [i])).ctx.resolvConfBackup = some backup := hbackup
  rw [hrun] at hkept ⊢
  rcases resolvConfBackup_step p config ((daemon p config).run before) i with heq | heq
  · rw [heq, hnone] at hkept
    cases hkept
  · rw [heq, backupAfterWrite, hnone, Option.none_or] at hkept ⊢
    obtain ⟨content, hcontent, -⟩ := Option.map_eq_some_iff.mp hkept
    exact ⟨content, hcontent, by rw [hcontent]; rfl⟩

/-- A run that has opened resolv.conf has a step that did so first. -/
lemma exists_firstWrite (hstatic : ∀ s ∈ config.staticServers, s.WellFormed) {is : List Input}
    (h : .resolvConfOpened ∈ ((daemon p config).run is).log) :
    ∃ content, FirstWrite p config is content := by
  induction is using List.reverseRecOn with
  | nil => cases h
  | append_singleton is i ih =>
    by_cases hbefore : .resolvConfOpened ∈ ((daemon p config).run is).log
    · obtain ⟨content, before, j, after, rfl, hlog, hopened, hcontent⟩ := ih hbefore
      exact ⟨content, before, j, after ++ [i], by simp, hlog, hopened, hcontent⟩
    · obtain ⟨content, hcontent, -⟩ := backup_of_opens hstatic hbefore h
      exact ⟨content, is, i, [], rfl, hbefore, h, hcontent⟩

/-- After the first write the backup is the content that was found. -/
lemma FirstWrite.backup (hstatic : ∀ s ∈ config.staticServers, s.WellFormed) {is : List Input}
    {content : String} (h : FirstWrite p config is content) :
    ((daemon p config).run is).ctx.resolvConfBackup = some (cString content) := by
  obtain ⟨before, i, after, rfl, hlog, hopened, hcontent⟩ := h
  obtain ⟨content', hcontent', hbackup⟩ := backup_of_opens hstatic hlog hopened
  obtain rfl : content = content' := Option.some.inj (hcontent.symm.trans hcontent')
  rw [List.append_cons, System.run_append]
  exact resolvConfBackup_runFrom p config hbackup after

/-- No transition uses an unset resource.  In every iteration of every run what its action uses is
set, so nothing unset is ever used; a backup never changes; it is the content that resolv.conf had
before it was first opened for writing, as a C string; and what a successful revert restores is this
content. -/
theorem resources_set_in_every_run (p : Platform) (config : Config)
    (hstatic : ∀ s ∈ config.staticServers, s.WellFormed) (is : List Input) :
    RunMeets p config (ResourcesSet p config) is ∧
    (∀ resource, .nullUse resource ∉ ((daemon p config).run is).log) ∧
    (∀ backup, ((daemon p config).run is).ctx.resolvConfBackup = some backup →
      ∀ js, ((daemon p config).run (is ++ js)).ctx.resolvConfBackup = some backup) ∧
    (.resolvConfOpened ∈ ((daemon p config).run is).log →
      ∃ content, FirstWrite p config is content) ∧
    (∀ content, FirstWrite p config is content →
      ((daemon p config).run is).ctx.resolvConfBackup = some (cString content)) ∧
    ∀ text, .resolvConfRestored text ∈ ((daemon p config).run is).log →
      ∃ content, FirstWrite p config is content ∧ text = cString content := by
  obtain ⟨hmeets, hrun⟩ := backed_run (p := p) hstatic is
  refine ⟨hmeets.mono fun m hm => hm.resourcesSet hstatic, hrun.log.noNullUse, ?_,
    exists_firstWrite hstatic, fun content h => h.backup hstatic, ?_⟩
  · intro backup hbackup js
    rw [System.run_append]
    exact resolvConfBackup_runFrom p config hbackup js
  · intro text htext
    obtain ⟨hbackup, hopened⟩ := hrun.log.restored text htext
    obtain ⟨content, hfirst⟩ := exists_firstWrite hstatic hopened
    refine ⟨content, hfirst, ?_⟩
    have hkept := hfirst.backup hstatic
    exact Option.some.inj (hbackup.symm.trans hkept)

/-- An event all of whose operations succeed and that finds the given content in resolv.conf. -/
def Input.finding (content : String) (event : DaemonEvent) : Input where
  event := event
  outcomes := { Outcomes.allOk with resolvConf := ⟨some content, true, true, true, .stored⟩ }
  isWireless := fun _ => false

/-- A run that writes resolv.conf and restores it. -/
theorem resources_set_until_stop :
    RunMeets .plain .plain (ResourcesSet .plain .plain)
      [.ok .nameAcquired, .finding "search a" (.jobFinished "done"), .ok .sigterm] ∧
    .resolvConfRestored "search a" ∈ ((daemon .plain .plain).run
      [.ok .nameAcquired, .finding "search a" (.jobFinished "done"), .ok .sigterm]).log ∧
    ∃ content, FirstWrite .plain .plain
      [.ok .nameAcquired, .finding "search a" (.jobFinished "done"), .ok .sigterm] content ∧
      "search a" = cString content := by
  obtain ⟨hmeets, -, -, -, -, hrestored⟩ := resources_set_in_every_run .plain .plain
    (by simp [Config.plain])
    [.ok .nameAcquired, .finding "search a" (.jobFinished "done"), .ok .sigterm]
  have hmem : .resolvConfRestored "search a" ∈ ((daemon .plain .plain).run
      [.ok .nameAcquired, .finding "search a" (.jobFinished "done"), .ok .sigterm]).log := by
    decide
  exact ⟨hmeets, hmem, hrestored _ hmem⟩

/-- Content behind a NUL is neither kept nor restored. -/
theorem resolvConf_restored_up_to_nul :
    FirstWrite .plain .plain
      [.ok .nameAcquired, .finding "a\x00b" (.jobFinished "done"), .ok .sigterm] "a\x00b" ∧
    ((daemon .plain .plain).run
      [.ok .nameAcquired, .finding "a\x00b" (.jobFinished "done"),
        .ok .sigterm]).ctx.resolvConfBackup = some "a" ∧
    .resolvConfRestored "a" ∈ ((daemon .plain .plain).run
      [.ok .nameAcquired, .finding "a\x00b" (.jobFinished "done"), .ok .sigterm]).log := by
  refine ⟨⟨[.ok .nameAcquired], .finding "a\x00b" (.jobFinished "done"), [.ok .sigterm], rfl, ?_, ?_,
    rfl⟩, ?_, ?_⟩ <;> decide

end Dnsconfd
