import Dnsconfd.DbusServer.CacheAgreement

/-!
# Reloading

A Reload in the state RUNNING writes the file anew and restarts the cache.  The wanted servers are
still the recorded ones, so the `update` that follows executes no commands, and the zones are left
as the file renders them.  The file never marks a zone insecure, and it sets the TLS flag by any of
the servers where the command goes by the first one; so a Reload preserves exactly the zones that
both render alike (`reload_preserves_zones_iff`).
-/

namespace Dnsconfd

open Library

variable {p : Platform} {config : Config}

/-- The file and the command denote the same zone: the first server supports DNSSEC, and it uses
TLS if any of the servers does. -/
def RendersAlike (servers : List ServerUri) : Prop :=
  (servers.head?.any fun server => server.dnssec = 0) = false ∧
    (servers.any fun server => server.protocol = .tls) =
      servers.head?.any fun server => server.protocol = .tls

/-- The flags decide, since the addresses are rendered alike. -/
lemma fileZone_eq_commandZone_iff {net : Inet} {servers : List ServerUri} :
    fileZone net servers = commandZone net servers ↔ RendersAlike servers := by
  have haddresses : servers.map (serverToUnboundString net) = servers.map (serverArg net) :=
    List.map_congr_left fun server _ => (serverArg_eq net server).symm
  unfold fileZone commandZone RendersAlike
  rw [ZoneState.mk.injEq]
  constructor
  · rintro ⟨-, htls, hinsecure⟩
    exact ⟨hinsecure.symm, htls⟩
  · rintro ⟨hinsecure, htls⟩
    exact ⟨haddresses, htls, hinsecure.symm⟩

/-! ## The invariant -/

/-- The servers `R` are wanted and recorded, and the table of servers is up to date. -/
structure Steady (p : Platform) (config : Config) (R : String → Option (List ServerUri))
    (ctx : Context) : Prop where
  table : ctx.currentDomainToServers =
    serverListToHashTable p (config.staticServers ++ ctx.currentDynamicServers)
  wanted : ∀ domain, wantedServers ctx domain = R domain
  recorded : ∀ domain, recordedServers ctx domain = R domain

/-- The states in which the file has been written and the cache not yet been restarted. -/
def FsmState.isPending : FsmState → Bool
  | .configuringDnsManager => true
  | .submittingStartJob => true
  | .waitingForStartJob => true
  | _ => false

/-- The states and events between the restart of the cache and the next Reload. -/
def isServing : FsmState → FsmEvent → Bool
  | .settingResolvConf, _ => true
  | .updatingDnsManager, event => event = .success
  | .running, event => event ≠ .reload
  | _, _ => false

/-- The invariant of a daemon that reloads and receives no Update: the wanted servers stay, and the
file and later the zones are rendered from them by `generate_forward_zones`. -/
structure Reloading (p : Platform) (config : Config) (R : String → Option (List ServerUri))
    (c : Cache) (ctx : Context) (event : FsmEvent) : Prop where
  started : ctx.currentState ≠ .starting
  steady : isOnCourse ctx.currentState event = true → Steady p config R ctx
  file : ctx.currentState.isPending = true → isOnCourse ctx.currentState event = true →
    ∀ domain, loadZones c.conf domain = renderZone (fileZone p.inet) domain (R domain)
  zones : isServing ctx.currentState event = true →
    ∀ domain, c.zones domain = renderZone (fileZone p.inet) domain (R domain)

/-- Steadiness concerns the tables only. -/
lemma Steady.keep {R : String → Option (List ServerUri)} {ctx ctx' : Context}
    (h : Steady p config R ctx) (hwanted : KeepsWanted ctx ctx') (hrecord : KeepsRecord ctx ctx') :
    Steady p config R ctx' := by
  refine ⟨?_, fun domain => ?_, fun domain => ?_⟩
  · rw [hwanted.table, hwanted.dynamic]
    exact h.table
  · rw [hwanted.wantedServers_eq]
    exact h.wanted domain
  · rw [recordedServers, hrecord]
    exact h.recorded domain

/-- Renewing the tables of a steady context changes nothing about them. -/
lemma Steady.updateContext {R : String → Option (List ServerUri)} {ctx : Context}
    (h : Steady p config R ctx) : Steady p config R (updateContext p config ctx) :=
  h.keep ⟨rfl, rfl, h.table.symm⟩ rfl

/-- What is wanted and recorded is not named by a command. -/
lemma Steady.not_named {R : String → Option (List ServerUri)} {ctx : Context}
    (h : Steady p config R ctx) (domain : String) :
    isNamed ctx.currentUnboundDomainToServers domain (wantedServers ctx domain) = false := by
  have hsame : (ctx.currentUnboundDomainToServers.bind fun table => table.lookup domain) =
      wantedServers ctx domain := (h.recorded domain).trans (h.wanted domain).symm
  cases hwanted : wantedServers ctx domain with
  | none =>
    rw [hwanted] at hsame
    rw [isNamed, hsame]
    rfl
  | some servers =>
    rw [hwanted] at hsame
    simp only [isNamed, unchangedDomain, hsame]
    rw [sameServers_self]
    rfl

/-- A kickoff takes place on course, except for the first one. -/
lemma isOnCourse_of_isKickoff {state : FsmState} {event : FsmEvent} (hstate : state ≠ .starting)
    (h : isKickoff state event = true) : isOnCourse state event = true := by
  revert hstate h
  cases state <;> cases event <;> simp [isKickoff, isOnCourse]

/-- The invariant is preserved by every iteration that does not handle an Update. -/
lemma Reloading.change {R : String → Option (List ServerUri)} {ctx : Context} {event : FsmEvent}
    {c c' : Cache} {r : ActionResult} (h : Reloading p config R c ctx event)
    (hevent : event ≠ .update) (hchange : CacheChange p config ctx event c r c') :
    Reloading p config R c' r.ctx r.event := by
  cases hchange with
  | written hs hstate hwanted hrecord hafter =>
    have hsteady := (h.steady (isOnCourse_of_isKickoff h.started hs)).updateContext
    refine ⟨by simp [hstate], fun _ => hsteady.keep hwanted hrecord, fun _ _ domain => ?_, ?_⟩
    · rw [hafter, loadZones_confLines, hsteady.wanted]
    · simp [hstate, isServing]
  | submitted hs hstate hwanted hrecord hafter =>
    have hfile : ∀ domain, loadZones c'.conf domain =
        renderZone (fileZone p.inet) domain (R domain) := by
      rw [hafter]
      refine h.file ?_ hs
      rcases hstate with ⟨hstate, -⟩ | ⟨hstate, -⟩ <;> rw [hstate] <;> rfl
    refine ⟨?_, fun _ => (h.steady hs).keep hwanted hrecord, fun _ _ => hfile, ?_⟩
    · rcases hstate with ⟨-, hstate⟩ | ⟨-, hstate⟩ <;> simp [hstate]
    · rcases hstate with ⟨-, hstate⟩ | ⟨-, hstate⟩ <;> simp [hstate, isServing]
  | restarted hs hevent hstate hwanted hrecord hafter =>
    have hcourse : isOnCourse ctx.currentState event = true := by rw [hs]; rfl
    refine ⟨by simp [hstate], fun _ => (h.steady hcourse).keep hwanted hrecord, ?_, fun _ => ?_⟩
    · simp [hstate, FsmState.isPending]
    · rw [hafter]
      exact h.file (by rw [hs]; rfl) hcourse
  | taken hs hupdate hstate hrecord hafter => exact absurd hupdate hevent
  | applied hs hevent hstate hwanted hrecord hafter =>
    have hsteady := h.steady (by rw [hs]; rfl)
    refine ⟨by simp [hstate], fun _ => ?_, ?_, fun _ domain => ?_⟩
    · refine ⟨?_, fun domain => ?_, fun domain => ?_⟩
      · rw [hwanted.table, hwanted.dynamic]
        exact hsteady.table
      · rw [hwanted.wantedServers_eq]
        exact hsteady.wanted domain
      · rw [hrecord]
        exact hsteady.wanted domain
    · simp [hstate, FsmState.isPending]
    · rw [hafter, hsteady.not_named]
      exact h.zones (by rw [hs]; rfl) domain
  | stalled hs hstate hfailed hwanted hrecord =>
    have hsteady := h.steady (by rw [hs]; rfl)
    refine ⟨by simp [hstate], fun _ => hsteady.keep hwanted hrecord, ?_, ?_⟩
    · simp [hstate, FsmState.isPending]
    · simp [hstate, isServing, hfailed]
  | entered hs hevent hstate hwanted hrecord hafter =>
    have hsteady := h.steady (by rw [hs]; rfl)
    refine ⟨by simp [hstate], fun _ => hsteady.keep hwanted hrecord, ?_, fun _ => ?_⟩
    · simp [hstate, FsmState.isPending]
    · rw [hafter]
      exact h.zones (by rw [hs, hevent]; rfl)
  | left hleft hstart =>
    have hoff : ¬ isOnCourse r.ctx.currentState r.event = true :=
      fun hcourse => hevent (hleft hcourse).2
    refine ⟨fun hs => h.started (hstart hs), fun hcourse => absurd hcourse hoff,
      fun _ hcourse => absurd hcourse hoff, fun hserving => absurd ?_ hoff⟩
    revert hserving
    cases r.ctx.currentState <;> cases r.event <;> simp [isServing, isOnCourse]

/-- Outside the iterations the state and the tables stay, and no Reload is lost. -/
lemma Reloading.beside {R : String → Option (List ServerUri)} {ctx ctx' : Context}
    {event event' : FsmEvent} {log l : List Effect} (h : Reloading p config R (cache log) ctx event)
    (hl : ∀ e ∈ l, e.sparesCache = true) (hstate : ctx'.currentState = ctx.currentState)
    (hwanted : KeepsWanted ctx ctx') (hrecord : KeepsRecord ctx ctx') (hsuccess : event' ≠ .success)
    (hreload : ctx.currentState = .running → event ≠ .reload) :
    Reloading p config R (cache (log ++ l)) ctx' event' := by
  have hcourse : isOnCourse ctx.currentState event' = true →
      isOnCourse ctx.currentState event = true := by
    cases ctx.currentState <;> simp [isOnCourse, hsuccess]
  have hserving : isServing ctx.currentState event' = true →
      isServing ctx.currentState event = true := by
    revert hreload
    cases ctx.currentState <;> simp +contextual [isServing, hsuccess]
  rw [cache_append, Cache.after_eq_self hl]
  constructor
  · rw [hstate]
    exact h.started
  · rw [hstate]
    exact fun hon => (h.steady (hcourse hon)).keep hwanted hrecord
  · rw [hstate]
    exact fun hpending hon => h.file hpending (hcourse hon)
  · rw [hstate]
    exact fun hserves => h.zones (hserving hserves)

/-- A Reload is not refused in the state RUNNING. -/
lemma ne_reload_of_refused {o : Outcomes} {ctx : Context} {event : FsmEvent}
    (hrefused : transitionAction p config o ctx event = none)
    (hs : ctx.currentState = .running) : event ≠ .reload := by
  rintro rfl
  simp [transitionAction, hs] at hrefused

/-- The invariant as a property of moments. -/
def ReloadingAt (p : Platform) (config : Config) (R : String → Option (List ServerUri))
    (a : Moment) : Prop :=
  Reloading p config R (cache a.log) a.ctx a.event

/-- The invariant is preserved by every small step of a daemon that receives no Update. -/
lemma ReloadingAt.micro {R : String → Option (List ServerUri)} {a b : Moment}
    (h : ReloadingAt p config R a) (hstep : Micro p config (fun m => m.event ≠ .update) a b) :
    ReloadingAt p config R b := by
  unfold ReloadingAt at h ⊢
  have hkeep : ∀ ctx : Context, KeepsWanted ctx ctx := fun _ => ⟨rfl, rfl, rfl⟩
  cases hstep with
  | edge hok hedge =>
    simp only [cache_append]
    exact h.change hok (hedge.cacheChange _)
  | @receive ctx log event he hu =>
    have hevent : event ≠ .success := by
      rintro rfl
      cases he
    simpa using h.beside (l := []) (by simp) rfl (hkeep ctx) rfl hevent (by simp)
  | parsed servers mode hok => exact absurd rfl hok
  | @skipped o ctx event log hrefused =>
    simpa using @Reloading.beside p config R ctx ctx event .none log [] h (by simp) rfl (hkeep ctx)
      rfl (by simp) (ne_reload_of_refused hrefused)
  | refused hrefused =>
    exact h.beside (by simp [Effect.sparesCache]) rfl ⟨rfl, rfl, rfl⟩ rfl (by simp)
      (ne_reload_of_refused hrefused)
  | replied | rejected error | reloadReplied =>
    exact h.beside (by simp [Effect.sparesCache]) rfl (hkeep _) rfl (by simp) (by simp)
  | nameLost =>
    exact h.beside (by simp [Effect.sparesCache]) rfl ⟨rfl, rfl, rfl⟩ rfl (by simp) (by simp)

/-- In the state RUNNING, between two events, everything wanted is recorded. -/
lemma steady_of_running (is : List Input)
    (hrunning : ((daemon p config).run is).ctx.currentState = .running) :
    Steady p config (recordedServers ((daemon p config).run is).ctx)
      ((daemon p config).run is).ctx := by
  have happlied := (@applied_run p config is).1
  obtain ⟨-, table, order, htable, hrecord⟩ := happlied.upToDate (by simp [Daemon.moment])
    (Or.inl hrunning)
  have hcurrent : ((daemon p config).run is).moment.ctx = ((daemon p config).run is).ctx := rfl
  rw [hcurrent] at htable hrecord
  refine ⟨happlied.table (by rw [hcurrent, hrunning]; rfl), fun domain => ?_, fun _ => rfl⟩
  rw [wantedServers, recordedServers, htable, hrecord, Option.bind_some, Option.bind_some,
    usedServersTable, Table.lookup_collect_visit]

/-! ## The zones after a Reload -/

/-- After a Reload in the state RUNNING and without an Update since, the zones in the state RUNNING
are those of the file. -/
lemma zones_after_reload {is js : List Input} {i : Input}
    (hrunning : ((daemon p config).run is).ctx.currentState = .running)
    (hreload : i.event = .reloadCall ∨ i.event = .jobFinished "stopped")
    (hjs : ∀ j ∈ js, ∀ servers mode, j.event ≠ .updateCall servers mode)
    (hback : ((daemon p config).run (is ++ i :: js)).ctx.currentState = .running)
    (domain : String) :
    (cache ((daemon p config).run (is ++ i :: js)).log).zones domain =
      renderZone (fileZone p.inet) domain
        (recordedServers ((daemon p config).run is).ctx domain) := by
  set before := (daemon p config).run is with hbefore
  set R := recordedServers before.ctx with hR
  have hi : ∀ servers mode, i.event ≠ .updateCall servers mode := by
    intro servers mode hcall
    rcases hreload with h | h <;> rw [h] at hcall <;> cases hcall
  -- the invariant holds as the Reload arrives, since nothing is asked of the zones then
  have harrival : ReloadingAt p config R ⟨⟨before.ctx, .reload, before.log⟩, false⟩ := by
    refine ⟨by simp [hrunning], fun _ => steady_of_running is hrunning, ?_, ?_⟩
    · simp [hrunning, FsmState.isPending]
    · simp [hrunning, isServing]
  have hstep : ReloadingAt p config R (before.step p config i).moment :=
    invariant_of_steps (fun _ _ h hstep => h.micro hstep) harrival
      (micro_reload hreload (iterationsMeet_of_not_updateCall hi))
  have hmeets : (daemon p config).Meets (IterationsMeet p config fun m => m.event ≠ .update)
      (before.step p config i) js :=
    System.meets_of_forall_mem _ (fun j hj _ => iterationsMeet_of_not_updateCall (hjs j hj)) _
  have hlater : (daemon p config).run (is ++ i :: js) =
      (daemon p config).runFrom (before.step p config i) js := by
    rw [System.run_append]
    rfl
  have hrun : ReloadingAt p config R ((daemon p config).run (is ++ i :: js)).moment := by
    rw [hlater]
    exact invariant_of_micro (fun _ _ h hstep => h.micro hstep) hstep hmeets
  refine hrun.zones ?_ domain
  change isServing ((daemon p config).run (is ++ i :: js)).ctx.currentState .none = true
  rw [hback]
  rfl

/-- What a Reload preserves: in a run that is in the state RUNNING, with the zones of all recorded
domains as their commands denote them, and that comes back to RUNNING after a Reload without an
Update in between, the recorded zones are as before exactly if the servers of each of them are
rendered alike by the file and by the command. -/
theorem reload_preserves_zones_iff (is js : List Input) (i : Input)
    (hrunning : ((daemon p config).run is).ctx.currentState = .running)
    (hzones : ∀ domain servers,
      recordedServers ((daemon p config).run is).ctx domain = some servers →
      (cache ((daemon p config).run is).log).zones domain = some (commandZone p.inet servers))
    (hreload : i.event = .reloadCall ∨ i.event = .jobFinished "stopped")
    (hjs : ∀ j ∈ js, ∀ servers mode, j.event ≠ .updateCall servers mode)
    (hback : ((daemon p config).run (is ++ i :: js)).ctx.currentState = .running) :
    (∀ domain servers, recordedServers ((daemon p config).run is).ctx domain = some servers →
      (cache ((daemon p config).run (is ++ i :: js)).log).zones domain =
        (cache ((daemon p config).run is).log).zones domain) ↔
    ∀ domain servers, recordedServers ((daemon p config).run is).ctx domain = some servers →
      RendersAlike servers := by
  have hdomain : ∀ domain servers,
      recordedServers ((daemon p config).run is).ctx domain = some servers →
      ((cache ((daemon p config).run (is ++ i :: js)).log).zones domain =
        (cache ((daemon p config).run is).log).zones domain ↔ RendersAlike servers) := by
    intro domain servers hrecorded
    rw [zones_after_reload hrunning hreload hjs hback, hzones domain servers hrecorded, hrecorded,
      ← @fileZone_eq_commandZone_iff p.inet]
    exact Option.some_inj
  constructor
  · intro h domain servers hrecorded
    exact (hdomain domain servers hrecorded).mp (h domain servers hrecorded)
  · intro h domain servers hrecorded
    exact (hdomain domain servers hrecorded).mpr (h domain servers hrecorded)

/-- What holds of all recorded domains, as a property of the entries of the table. -/
lemma forall_recorded_iff {ctx : Context} {P : String → List ServerUri → Prop} :
    (∀ domain servers, recordedServers ctx domain = some servers → P domain servers) ↔
      ∀ entry ∈ (ctx.currentUnboundDomainToServers.map AList.entries).getD [],
        P entry.1 entry.2 := by
  unfold recordedServers
  cases ctx.currentUnboundDomainToServers with
  | none => simp
  | some table =>
    simp only [Option.bind_some, Option.map_some, Option.getD_some]
    constructor
    · intro h entry hentry
      exact h entry.1 entry.2 (AList.mem_lookup_iff.mpr hentry)
    · intro h domain servers hlookup
      exact h ⟨domain, servers⟩ (AList.mem_lookup_iff.mp hlookup)

/-- The Update call with one server for the root domain, which supports DNSSEC or not. -/
def dnssecCall (dnssec : Bool) : DaemonEvent :=
  .updateCall [[("address", .byteString [192, 0, 2, 1]), ("dnssec", .boolean dnssec)]] 0

/-- The inputs of a daemon that becomes RUNNING and receives such an Update. -/
def runningInputs (dnssec : Bool) : List Input :=
  [.ok .nameAcquired, .ok (.jobFinished "done"), .ok (dnssecCall dnssec)]

/-- A Reload with a server that supports DNSSEC. -/
theorem reload_preserves_zones_dnssec :
    let before := (daemon .plain .plain).run (runningInputs true)
    let later := (daemon .plain .plain).run
      (runningInputs true ++ .ok .reloadCall :: [.ok (.jobFinished "done")])
    ((∀ domain servers, recordedServers before.ctx domain = some servers →
      (cache later.log).zones domain = (cache before.log).zones domain) ↔
    ∀ domain servers, recordedServers before.ctx domain = some servers →
      RendersAlike servers) ∧
    ∀ domain servers, recordedServers before.ctx domain = some servers →
      RendersAlike servers :=
  ⟨reload_preserves_zones_iff (runningInputs true) [.ok (.jobFinished "done")] (.ok .reloadCall)
      (by decide) (forall_recorded_iff.mpr (by decide)) (Or.inl rfl)
      (by simp [Input.ok]) (by decide),
    forall_recorded_iff.mpr (by unfold RendersAlike; decide)⟩

/-- A Reload with a server that does not support DNSSEC: its zone was marked insecure by the
command, and after the restart it is not. -/
theorem reload_loses_insecure :
    let before := (daemon .plain .plain).run (runningInputs false)
    let later := (daemon .plain .plain).run
      (runningInputs false ++ .ok .reloadCall :: [.ok (.jobFinished "done")])
    before.ctx.currentState = .running ∧ later.ctx.currentState = .running ∧
    (∀ domain servers, recordedServers before.ctx domain = some servers →
      (cache before.log).zones domain =
        some (commandZone Platform.plain.inet servers)) ∧
    (recordedServers before.ctx ".").isSome = true ∧
    (cache before.log).zones "." = some ⟨["192.0.2.1@53"], false, true⟩ ∧
    (cache later.log).zones "." = some ⟨["192.0.2.1@53"], false, false⟩ :=
  ⟨by decide, by decide, forall_recorded_iff.mpr (by decide), by decide, by decide, by decide⟩

end Dnsconfd
