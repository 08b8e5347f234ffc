import Dnsconfd.DbusServer.Applied
import Dnsconfd.UnboundManager.Reconciliation

/-!
# Agreement with the cache

The forward zones of the cache are a question to the log: `cache` follows the files written, the
restarts and the commands.  What one iteration of the state machine does to them and to the tables
of the context is said once, in `Edge.cacheChange`.

Commands are computed from the recorded and the wanted servers, while a restart loads what was
wanted when the file was written.  So the cache agrees with the record in the state RUNNING
(`cache_agrees`) if at every restart the file is right for the domains that the commands will not
name; it can fail to be after Updates and Reloads while the start job is pending
(`cache_disagrees`).
-/

namespace Dnsconfd

open Library

variable {p : Platform} {config : Config}

/-! ## The cache -/

/-- The file last written and the forward zones in use. -/
structure Cache where
  conf : List ConfLine
  zones : Zones

/-- The cache after one further effect: a finished start job loads the file, and commands that
succeed change the zones. -/
def cacheStep (cache : Cache) : Effect → Cache
  | .confWritten lines => { cache with conf := lines }
  | .startJobDone => { cache with zones := loadZones cache.conf }
  | .commandExecuted command true => { cache with zones := command.apply cache.zones }
  | _ => cache

/-- Continue with the effects of a log. -/
def Cache.after (cache : Cache) (log : List Effect) : Cache :=
  log.foldl cacheStep cache

/-- The cache that a log leaves; it starts without any zones. -/
def cache (log : List Effect) : Cache :=
  Cache.after ⟨[], fun _ => none⟩ log

lemma cache_append (log l : List Effect) : cache (log ++ l) = (cache log).after l :=
  List.foldl_append

lemma Cache.after_append (c : Cache) (l₁ l₂ : List Effect) :
    c.after (l₁ ++ l₂) = (c.after l₁).after l₂ :=
  List.foldl_append

/-- The effects that do not concern the cache. -/
def Effect.sparesCache : Effect → Bool
  | .confWritten _ => false
  | .startJobDone => false
  | .commandExecuted _ _ => false
  | _ => true

/-- The effects that do not concern the cache leave it alone. -/
lemma Cache.after_eq_self {l : List Effect} (h : ∀ e ∈ l, e.sparesCache = true) (c : Cache) :
    c.after l = c := by
  refine foldl_eq_self (fun e he c => ?_) c
  have hspares := h e he
  cases e <;> first | rfl | cases hspares

/-- Commands that succeed change the zones one after the other. -/
lemma Cache.after_commands (c : Cache) (commands : List UnboundCommand) :
    c.after (commands.map (.commandExecuted · true)) =
      { c with zones := applyCommands commands c.zones } := by
  induction commands generalizing c with
  | nil => rfl
  | cons command commands ih => exact ih _

/-- An `update` that returns 0 has set the zones of the domains it names to the wanted ones and
left all other zones alone, and its table has the wanted servers. -/
lemma update_done_cache {o : UpdateOutcome} {ctx : Context} {result : ServerTable}
    {effects : List Effect} (h : update p config o ctx = (.done result, effects)) (c : Cache) :
    (∀ domain, result.lookup domain = wantedServers ctx domain) ∧
      (c.after effects).conf = c.conf ∧
      ∀ domain, (c.after effects).zones domain =
        if isNamed ctx.currentUnboundDomainToServers domain (wantedServers ctx domain) then
          renderZone (commandZone p.inet) domain (wantedServers ctx domain)
        else c.zones domain := by
  obtain ⟨table, htable, hresult, happly⟩ := update_done h
  obtain ⟨-, hadds, hremoves, heffects⟩ := applyUpdate_done happly
  have hlookup : ∀ domain, result.lookup domain = wantedServers ctx domain := by
    intro domain
    rw [hresult, usedServersTable, Table.lookup_collect_visit, wantedServers, htable]
    rfl
  rw [executeCommands_ok hadds, executeCommands_ok hremoves, ← List.map_append] at heffects
  refine ⟨hlookup, by rw [heffects, Cache.after_commands], fun domain => ?_⟩
  rw [heffects, Cache.after_commands, ← hlookup]
  exact applyCommands_update o.addOrder o.removeOrder _ result c.zones domain

/-! ## What one iteration does to the cache -/

/-- The wanted servers, and what they are made from, are the same in both contexts. -/
structure KeepsWanted (ctx ctx' : Context) : Prop where
  dynamic : ctx'.currentDynamicServers = ctx.currentDynamicServers
  mode : ctx'.resolutionMode = ctx.resolutionMode
  table : ctx'.currentDomainToServers = ctx.currentDomainToServers

lemma KeepsWanted.wantedServers_eq {ctx ctx' : Context} (h : KeepsWanted ctx ctx')
    (domain : String) : wantedServers ctx' domain = wantedServers ctx domain := by
  rw [wantedServers, h.mode, h.table]
  rfl

/-- The record of the cache is the same in both contexts. -/
def KeepsRecord (ctx ctx' : Context) : Prop :=
  ctx'.currentUnboundDomainToServers = ctx.currentUnboundDomainToServers

/-- The states and events from which the machine can come to RUNNING without a further kickoff or
Update. -/
def isOnCourse : FsmState → FsmEvent → Bool
  | .configuringDnsManager, event => event = .success
  | .submittingStartJob, event => event = .success
  | .waitingForStartJob, _ => true
  | .settingResolvConf, _ => true
  | .updatingDnsManager, _ => true
  | .running, _ => true
  | _, _ => false

/-- What an iteration does to the cache and to the tables of the context.  An iteration that leaves
the course towards RUNNING and an Update taken over while the start job is pending are only noted
as such. -/
inductive CacheChange (p : Platform) (config : Config) (ctx : Context) (event : FsmEvent)
    (before : Cache) (r : ActionResult) (after : Cache) : Prop where
  | written {o : KickoffOutcome} {ca : String} (hs : isKickoff ctx.currentState event = true)
      (hstate : r.ctx.currentState = .configuringDnsManager)
      (hwanted : KeepsWanted (updateContext p config ctx) r.ctx) (hrecord : KeepsRecord ctx r.ctx)
      (hafter : after =
        { before with conf := confLines p config o (updateContext p config ctx) ca })
  | submitted (hs : isOnCourse ctx.currentState event = true)
      (hstate : ctx.currentState = .configuringDnsManager ∧
          r.ctx.currentState = .submittingStartJob ∨
        ctx.currentState = .submittingStartJob ∧ r.ctx.currentState = .waitingForStartJob)
      (hwanted : KeepsWanted ctx r.ctx) (hrecord : KeepsRecord ctx r.ctx) (hafter : after = before)
  | restarted (hs : ctx.currentState = .waitingForStartJob) (hevent : event = .jobSuccess)
      (hstate : r.ctx.currentState = .settingResolvConf)
      (hwanted : KeepsWanted ctx r.ctx) (hrecord : KeepsRecord ctx r.ctx)
      (hafter : after = { before with zones := loadZones before.conf })
  | taken (hs : ctx.currentState = .running) (hevent : event = .update)
      (hstate : r.ctx.currentState = .settingResolvConf)
      (hrecord : KeepsRecord ctx r.ctx) (hafter : after = before)
  | applied (hs : ctx.currentState = .settingResolvConf) (hevent : event = .success)
      (hstate : r.ctx.currentState = .updatingDnsManager)
      (hwanted : KeepsWanted ctx r.ctx)
      (hrecord : ∀ domain, recordedServers r.ctx domain = wantedServers ctx domain)
      (hafter : ∀ domain, after.zones domain =
        if isNamed ctx.currentUnboundDomainToServers domain (wantedServers ctx domain) then
          renderZone (commandZone p.inet) domain (wantedServers ctx domain)
        else before.zones domain)
  | stalled (hs : ctx.currentState = .settingResolvConf)
      (hstate : r.ctx.currentState = .updatingDnsManager) (hevent : r.event ≠ .success)
      (hwanted : KeepsWanted ctx r.ctx) (hrecord : KeepsRecord ctx r.ctx)
  | entered (hs : ctx.currentState = .updatingDnsManager) (hevent : event = .success)
      (hstate : r.ctx.currentState = .running)
      (hwanted : KeepsWanted ctx r.ctx) (hrecord : KeepsRecord ctx r.ctx) (hafter : after = before)
  | left (h : isOnCourse r.ctx.currentState r.event = true →
      r.ctx.currentState = .waitingForStartJob ∧ event = .update)
      (hstart : r.ctx.currentState = .starting → ctx.currentState = .starting)

/-- Every edge changes the cache in one of these ways. -/
theorem Edge.cacheChange {o : Outcomes} {ctx : Context} {event : FsmEvent} {r : ActionResult}
    (h : Edge p config o ctx event r) (c : Cache) :
    CacheChange p config ctx event c r
      (c.after (.transitionMade ctx.currentState event :: r.effects)) := by
  have hspare : ∀ {l : List Effect}, (∀ e ∈ l, e.sparesCache = true) →
      c.after (.transitionMade ctx.currentState event :: l) = c :=
    fun hl => Cache.after_eq_self hl c
  have hresolv : ∀ {ctx : Context}, ∀ e ∈ (setResolvConf p config o.resolvConf ctx).effects,
      e.sparesCache = true := by
    intro ctx e he
    rcases mem_setResolvConf_effects he with rfl | ⟨text, rfl⟩ | ⟨rfl, -⟩ <;> rfl
  cases h with
  | refresh hs =>
    refine .left (fun hcourse => ⟨?_, rfl⟩) id
    rcases hs with hs | hs
    · simp [updateContext, setDynamicServers, hs, isOnCourse] at hcourse
    · simpa [updateContext, setDynamicServers] using hs
  | @kickoff event n hs hn =>
    rcases fsmStartingEventKickoff_cases p config o.kickoff ctx with
      ⟨ca, hevent, heffects⟩ | ⟨hevent, -⟩
    · have hafter : c.after (.transitionMade ctx.currentState event ::
          (n ++ (fsmStartingEventKickoff p config o.kickoff ctx).effects)) =
          { c with conf := confLines p config o.kickoff (updateContext p config ctx) ca } := by
        rw [heffects]
        rcases hn with rfl | rfl <;> rfl
      refine .written hs rfl ⟨?_, ?_, ?_⟩ ?_ hafter
      · simp
      · simp
      · simp
      · simp [KeepsRecord, updateContext]
    · refine .left (fun hcourse => ?_) (by simp)
      simp [hevent, isOnCourse] at hcourse
  | ignored hs =>
    refine .left (fun hcourse => absurd hcourse ?_) id
    revert hs
    cases ctx.currentState <;> cases event <;> simp [isIgnored, isOnCourse]
  | startJob hs =>
    refine .submitted (by rw [hs]; rfl) (Or.inl ⟨hs, rfl⟩) ⟨?_, ?_, ?_⟩ ?_ (hspare fun e he => ?_)
    · simp [ActionResult.enter]
    · simp [ActionResult.enter]
    · simp [ActionResult.enter]
    · simp [ActionResult.enter, KeepsRecord]
    · rcases mem_setServiceStatus_effects he with rfl | rfl <;> rfl
  | startJobSubmitted hs =>
    exact .submitted (by rw [hs]; rfl) (Or.inr ⟨hs, rfl⟩) ⟨rfl, rfl, rfl⟩ rfl (hspare (by simp))
  | startJobDone hs =>
    refine .restarted hs rfl rfl ⟨?_, ?_, ?_⟩ ?_ ?_
    · simp
    · simp
    · simp
    · simp [KeepsRecord]
    · exact Cache.after_eq_self hresolv { c with zones := loadZones c.conf }
  | updateRunning hs =>
    refine .taken hs rfl rfl ?_ (hspare hresolv)
    simp [ActionResult.enter, KeepsRecord, updateContext, setDynamicServers]
  | resolvConfSet hs =>
    rcases updateDnsManager_cases p config o.update ctx with
      ⟨result, effects, hupdate, heq⟩ | ⟨effects, event, hevent, -, heq⟩
    · obtain ⟨hlookup, -, hzones⟩ := update_done_cache hupdate c
      rw [heq]
      refine .applied hs rfl rfl ⟨rfl, rfl, rfl⟩ (fun domain => hlookup domain) fun domain => ?_
      have heffects : c.after (.transitionMade ctx.currentState .success ::
          (effects ++ [.updateSucceeded ctx.currentDynamicServers, .notified "READY=1\n",
            .serialSignal ctx.requestedConfigurationSerial])) = c.after effects :=
        Cache.after_append c effects _
      simp only [ActionResult.enter]
      rw [heffects]
      exact hzones domain
    · rw [heq]
      refine .stalled hs rfl ?_ ⟨rfl, rfl, rfl⟩ rfl
      rcases hevent with rfl | rfl <;> simp [ActionResult.enter]
  | updated hs => exact .entered hs rfl rfl ⟨rfl, rfl, rfl⟩ rfl (hspare (by simp))
  | abandon hs | startJobFailed hs | resolvConfFailed hs | updateFailed hs | stopRunning hs
  | stopJob hs | stopJobSubmitted hs =>
    exact .left (fun hcourse => by cases hcourse) (fun hs => by cases hs)
  | quit hs => exact .left (fun hcourse => by rw [hs] at hcourse; cases hcourse) id

/-! ## The condition -/

/-- Two zones forward to the same addresses in the same way. -/
def SameForwarding (z₁ z₂ : Option ZoneState) : Prop :=
  z₁.map ZoneState.forwarding = z₂.map ZoneState.forwarding

instance (z₁ z₂ : Option ZoneState) : Decidable (SameForwarding z₁ z₂) :=
  inferInstanceAs (Decidable (_ = _))

/-- If the wanted servers of a domain are those recorded for it, then its zone is already that of
the wanted servers. -/
def ReadyAt (p : Platform) (zones : Zones) (ctx : Context) (domain : String) : Prop :=
  isNamed ctx.currentUnboundDomainToServers domain (wantedServers ctx domain) = false →
    SameForwarding (zones domain)
      (renderZone (commandZone p.inet) domain (wantedServers ctx domain))

instance (zones : Zones) (ctx : Context) (domain : String) :
    Decidable (ReadyAt p zones ctx domain) :=
  inferInstanceAs (Decidable (_ → _))

/-- The zones are right at every domain that the commands of an `update` would not name. -/
def Ready (p : Platform) (zones : Zones) (ctx : Context) : Prop :=
  ∀ domain, ReadyAt p zones ctx domain

/-- The domains at which a file and the tables of a context have anything to say. -/
def mentionedDomains (lines : List ConfLine) (ctx : Context) : List String :=
  "." :: (loadClauses lines).2.map Prod.fst ++
    (ctx.currentDomainToServers.map AList.keys).getD []

/-- Only the domains mentioned matter. -/
lemma ready_iff_mentioned (lines : List ConfLine) (ctx : Context) :
    (∀ domain ∈ mentionedDomains lines ctx, ReadyAt p (loadZones lines) ctx domain) ↔
      Ready p (loadZones lines) ctx := by
  refine ⟨fun h domain => ?_, fun h domain _ => h domain⟩
  by_cases hmem : domain ∈ mentionedDomains lines ctx
  · exact h domain hmem
  · simp only [mentionedDomains, List.cons_append, List.mem_cons, List.mem_append, not_or] at hmem
    obtain ⟨hroot, hfile, htable⟩ := hmem
    have hzone : loadZones lines domain = none := by
      rw [loadZones, List.lookup_eq_none_iff]
      intro entry hentry
      have hne : domain ≠ entry.1 := by
        rintro rfl
        exact hfile (List.mem_map_of_mem hentry)
      simpa using hne
    have hwanted : wantedServers ctx domain = none := by
      unfold wantedServers
      cases hctx : ctx.currentDomainToServers with
      | none => rfl
      | some table =>
        rw [hctx] at htable
        have hlookup : table.lookup domain = none := AList.lookup_eq_none.mpr htable
        simp [hlookup]
    intro _
    rw [hzone, hwanted]
    simp [SameForwarding, renderZone, hroot]

instance (lines : List ConfLine) (ctx : Context) : Decidable (Ready p (loadZones lines) ctx) :=
  decidable_of_iff _ (ready_iff_mentioned lines ctx)

/-- The condition: when a start job is reported done, the file last written is right for every
domain whose wanted servers are those recorded. -/
def StartsReady (p : Platform) (m : Machine) : Prop :=
  m.ctx.currentState = .waitingForStartJob → m.event = .jobSuccess →
    Ready p (loadZones (cache m.log).conf) m.ctx

instance : DecidablePred (StartsReady p) :=
  fun _ => inferInstanceAs (Decidable (_ → _ → _))

/-! ## Agreement in every run -/

/-- The zones of the cache are those of the recorded servers. -/
def Agrees (p : Platform) (zones : Zones) (ctx : Context) : Prop :=
  ∀ domain, SameForwarding (zones domain)
    (renderZone (commandZone p.inet) domain (recordedServers ctx domain))

/-- A domain that the commands do not name has the same zone before and after. -/
lemma renderZone_of_not_named {net : Inet} {ctx : Context} {domain : String}
    {wanted : Option (List ServerUri)}
    (h : isNamed ctx.currentUnboundDomainToServers domain wanted = false) :
    renderZone (commandZone net) domain (recordedServers ctx domain) =
      renderZone (commandZone net) domain wanted := by
  unfold recordedServers
  cases wanted with
  | none =>
    have hnone : (ctx.currentUnboundDomainToServers.bind fun table => table.lookup domain) =
        none := by simpa [isNamed] using h
    rw [hnone]
  | some servers =>
    simp only [isNamed, unchangedDomain, Bool.not_eq_eq_eq_not, Bool.not_false] at h
    cases hold : ctx.currentUnboundDomainToServers.bind fun table => table.lookup domain with
    | none => rw [hold] at h; cases h
    | some servers' =>
      rw [hold] at h
      exact congrArg some (commandZone_of_sameServers h).symm

/-- The invariant: the cache agrees with the record once `update` has succeeded, and before that it
is right for the domains that `update` will not name. -/
structure InAgreement (p : Platform) (c : Cache) (ctx : Context) (event : FsmEvent) : Prop where
  ready : ctx.currentState = .settingResolvConf → event = .success → Ready p c.zones ctx
  agrees : ctx.currentState = .running ∨
    (ctx.currentState = .updatingDnsManager ∧ event = .success) → Agrees p c.zones ctx

/-- The invariant is preserved by every iteration that meets the condition. -/
lemma InAgreement.change {ctx : Context} {event : FsmEvent} {c c' : Cache} {r : ActionResult}
    (h : InAgreement p c ctx event)
    (hok : ctx.currentState = .waitingForStartJob → event = .jobSuccess →
      Ready p (loadZones c.conf) ctx)
    (hchange : CacheChange p config ctx event c r c') : InAgreement p c' r.ctx r.event := by
  have helsewhere : r.ctx.currentState ≠ .settingResolvConf → r.ctx.currentState ≠ .running →
      ¬ (r.ctx.currentState = .updatingDnsManager ∧ r.event = .success) →
      InAgreement p c' r.ctx r.event :=
    fun h₁ h₂ h₃ => ⟨fun hs => absurd hs h₁, fun hs => hs.elim (absurd · h₂) (absurd · h₃)⟩
  cases hchange with
  | written hs hstate hwanted hrecord hafter =>
    exact helsewhere (by simp [hstate]) (by simp [hstate]) (by simp [hstate])
  | submitted hs hstate hwanted hrecord hafter =>
    rcases hstate with ⟨-, hstate⟩ | ⟨-, hstate⟩ <;>
      exact helsewhere (by simp [hstate]) (by simp [hstate]) (by simp [hstate])
  | restarted hs hevent hstate hwanted hrecord hafter =>
    refine ⟨fun _ _ domain => ?_, by simp [hstate]⟩
    rw [ReadyAt, hwanted.wantedServers_eq, hrecord, hafter]
    exact hok hs hevent domain
  | taken hs hevent hstate hrecord hafter =>
    refine ⟨fun _ _ domain hnamed => ?_, by simp [hstate]⟩
    have hbefore := h.agrees (Or.inl hs) domain
    rw [hrecord] at hnamed
    rw [renderZone_of_not_named hnamed] at hbefore
    rw [hafter]
    exact hbefore
  | applied hs hevent hstate hwanted hrecord hafter =>
    refine ⟨by simp [hstate], fun _ domain => ?_⟩
    rw [hrecord, hafter]
    cases hnamed : isNamed ctx.currentUnboundDomainToServers domain (wantedServers ctx domain) with
    | true => rfl
    | false => exact h.ready hs hevent domain hnamed
  | stalled hs hstate hevent hwanted hrecord =>
    exact helsewhere (by simp [hstate]) (by simp [hstate]) (by simp [hevent])
  | entered hs hevent hstate hwanted hrecord hafter =>
    refine ⟨by simp [hstate], fun _ domain => ?_⟩
    rw [recordedServers, hrecord, hafter]
    exact h.agrees (Or.inr ⟨hs, hevent⟩) domain
  | left hleft hstart =>
    have hoff : ∀ state, r.ctx.currentState = state → state ≠ .waitingForStartJob →
        isOnCourse state r.event = false := by
      rintro state rfl hstate
      by_contra hcourse
      exact hstate (hleft (by simpa using hcourse)).1
    refine helsewhere (fun hs => ?_) (fun hs => ?_) (fun hs => ?_)
    · exact absurd (hoff _ hs (by simp)) (by simp [isOnCourse])
    · exact absurd (hoff _ hs (by simp)) (by simp [isOnCourse])
    · exact absurd (hoff _ hs.1 (by simp)) (by simp [isOnCourse])

/-- Outside the iterations only the state RUNNING matters, and what is recorded stays. -/
lemma InAgreement.beside {ctx ctx' : Context} {event event' : FsmEvent} {log l : List Effect}
    (h : InAgreement p (cache log) ctx event) (hl : ∀ e ∈ l, e.sparesCache = true)
    (hstate : ctx'.currentState = ctx.currentState) (hrecord : KeepsRecord ctx ctx')
    (hevent : event' ≠ .success) : InAgreement p (cache (log ++ l)) ctx' event' := by
  refine ⟨fun _ hsuccess => absurd hsuccess hevent, fun hs domain => ?_⟩
  rcases hs with hs | ⟨-, hsuccess⟩
  · rw [recordedServers, hrecord, cache_append, Cache.after_eq_self hl]
    exact h.agrees (Or.inl (hstate ▸ hs)) domain
  · exact absurd hsuccess hevent

/-- The invariant as a property of moments. -/
def AgreeingAt (p : Platform) (a : Moment) : Prop :=
  InAgreement p (cache a.log) a.ctx a.event

/-- The invariant is preserved by every small step whose iteration meets the condition. -/
lemma AgreeingAt.micro {a b : Moment} (h : AgreeingAt p a)
    (hstep : Micro p config (StartsReady p) a b) : AgreeingAt p b := by
  unfold AgreeingAt at h ⊢
  cases hstep with
  | edge hok hedge =>
    simp only [cache_append]
    exact h.change hok (hedge.cacheChange _)
  | @receive ctx log event he hu =>
    have hevent : event ≠ .success := by
      rintro rfl
      cases he
    simpa using h.beside (l := []) (by simp) rfl rfl hevent
  | @skipped o ctx event log hrefused =>
    simpa using @InAgreement.beside p ctx ctx event .none log [] h (by simp) rfl rfl (by simp)
  | parsed servers mode hok | refused hrefused | replied | rejected error | reloadReplied
  | nameLost => exact h.beside (by simp [Effect.sparesCache]) rfl rfl (by simp)

/-- The invariant holds after every run in which every restart is ready. -/
lemma agreeingAt_run {is : List Input} (hok : RunMeets p config (StartsReady p) is) :
    AgreeingAt p ((daemon p config).run is).moment := by
  have hinitial : AgreeingAt p Daemon.initial.moment := by
    constructor
    · intro hs
      cases hs
    · rintro (hs | ⟨hs, -⟩) <;> cases hs
  exact invariant_of_micro (fun _ _ h hstep => h.micro hstep) hinitial hok

/-- The cache agrees with the record, in every run in which every restart is ready: whenever the
machine rests in the state RUNNING, every domain is forwarded in the cache exactly as the servers
recorded for it say, the root domain to the loopback address if none are recorded, and all other
domains without recorded servers are not forwarded. -/
theorem cache_agrees (is : List Input) (hok : RunMeets p config (StartsReady p) is)
    (hrunning : ((daemon p config).run is).ctx.currentState = .running) (domain : String) :
    ((cache ((daemon p config).run is).log).zones domain).map ZoneState.forwarding =
      (renderZone (commandZone p.inet) domain
        (recordedServers ((daemon p config).run is).ctx domain)).map ZoneState.forwarding :=
  (agreeingAt_run hok).agrees (Or.inl hrunning) domain

/-- The Update call with one server for one domain. -/
def domainCall (domain : String) : DaemonEvent :=
  .updateCall [[("address", .byteString [192, 0, 2, 1]),
    ("routing_domains", .stringArray [domain])]] 0

/-- An Update while the start job is pending, which the commands of `update` catch up with. -/
theorem cache_agrees_update :
    let is := [Input.ok .nameAcquired, .ok (domainCall "a.example"), .ok (.jobFinished "done")]
    let d := (daemon .plain .plain).run is
    RunMeets .plain .plain (StartsReady .plain) is ∧ d.ctx.currentState = .running ∧
      ((cache d.log).zones "a.example").map ZoneState.forwarding =
        (renderZone (commandZone Platform.plain.inet) "a.example"
          (recordedServers d.ctx "a.example")).map ZoneState.forwarding :=
  ⟨by decide, by decide, cache_agrees _ (by decide) (by decide) "a.example"⟩

/-- While the start job is pending, an Update brings a domain, a Reload writes it to the file and
a second Update drops it again: the cache forwards the domain, which is not recorded. -/
theorem cache_disagrees :
    let d := (daemon .plain .plain).run [.ok .nameAcquired, .ok (domainCall "a.example"),
      .ok .reloadCall, .ok (.updateCall [] 0), .ok (.jobFinished "done")]
    d.ctx.currentState = .running ∧ recordedServers d.ctx "a.example" = none ∧
      ((cache d.log).zones "a.example").map ZoneState.forwarding =
        some (["192.0.2.1@53"], false) ∧
      ((cache d.log).zones "a.example").map ZoneState.forwarding ≠
        (renderZone (commandZone Platform.plain.inet) "a.example"
          (recordedServers d.ctx "a.example")).map ZoneState.forwarding := by
  refine ⟨by decide, by decide, by decide, by decide⟩

end Dnsconfd
